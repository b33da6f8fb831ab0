/-
Several values at once.

An instruction takes its operands one by one and puts its results back one by one, and
each time a bound is checked. Seen as a whole it is simpler: `n` values can be taken exactly
if `n` cells are live, and values can be put exactly if there is room for all of them. If
not, the machine is left at the bound: taking has then taken everything there was, and
putting has filled the stack with as many of the values as fit.

Taking a value does not touch its cell. So the cells are changed by what is put only, and
there from the stack pointer on (`overwrite`).
-/
import StackMachine.Proofs.Machine.Effect

set_option autoImplicit false

namespace StackMachine.Machine

open Exec

variable {m : Machine} {inst : Instruction}

/-- The value `depth` cells below the topmost one. -/
def peek (m : Machine) (depth : Nat) : Word :=
  (m.stack[m.sp - 1 - depth]?).getD 0

/-- The machine after taking `n` values off. -/
def popped (m : Machine) (n : Nat) : Machine :=
  { m with sp := m.sp - n, fp := m.fp - n }

/-- Cells with values written over them, the first one over cell `start`. -/
def overwrite (stack : Vector Word stackCapacity) (start : Nat) :
    List Word → Vector Word stackCapacity
  | [] => stack
  | value :: values => overwrite (stack.setIfInBounds start value) (start + 1) values

/-- The machine after putting values on. -/
def pushed (m : Machine) (values : List Word) : Machine :=
  { m with
    stack := overwrite m.stack m.sp values
    sp := m.sp + values.length
    fp := m.fp + values.length }

/-! ## Cells -/

/-- Cells in front of the values and behind them stay. -/
theorem getElem?_overwrite_outside {stack : Vector Word stackCapacity} {start i : Nat}
    {values : List Word} (h : i < start ∨ start + values.length ≤ i) :
    (overwrite stack start values)[i]? = stack[i]? := by
  induction values generalizing stack start with
  | nil => rfl
  | cons value values ih =>
    rw [List.length_cons] at h
    rw [overwrite, ih (by omega), Vector.getElem?_setIfInBounds_ne (by omega)]

theorem getElem?_overwrite_inside {stack : Vector Word stackCapacity} {start k : Nat}
    {values : List Word} (hk : k < values.length) (hfit : start + k < stackCapacity) :
    (overwrite stack start values)[start + k]? = values[k]? := by
  induction values generalizing stack start k with
  | nil => simp at hk
  | cons value values ih =>
    rw [overwrite]
    rcases k with _ | k
    · -- the first value is written first and is not reached again
      rw [getElem?_overwrite_outside (by omega)]
      simp only [Nat.add_zero] at hfit ⊢
      rw [Vector.getElem?_setIfInBounds_self_of_lt hfit]
      rfl
    · rw [List.length_cons] at hk
      have hrest : (overwrite (stack.setIfInBounds start value) (start + 1) values)[start + 1 + k]?
          = values[k]? := ih (by omega) (by omega)
      rw [List.getElem?_cons_succ, ← hrest, show start + (k + 1) = start + 1 + k from by omega]

theorem overwrite_append {stack : Vector Word stackCapacity} {start : Nat}
    (values more : List Word) :
    overwrite stack start (values ++ more)
      = overwrite (overwrite stack start values) (start + values.length) more := by
  induction values generalizing stack start with
  | nil => rfl
  | cons value values ih =>
    rw [List.cons_append, overwrite, overwrite, ih, List.length_cons,
      show start + 1 + values.length = start + (values.length + 1) from by omega]

theorem length_live (h : m.sp ≤ stackCapacity) : m.live.length = m.sp := by
  rw [live, List.length_take, Vector.length_toList]
  omega

theorem getElem?_live {i : Nat} (h : i < m.sp) : m.live[i]? = m.stack[i]? := by
  rw [live, List.getElem?_take_of_lt h, Vector.getElem?_toList]

/-- Live values that are put back come into the cells they came from. -/
theorem overwrite_live_drop {start : Nat} (hsp : m.sp ≤ stackCapacity) :
    overwrite m.stack start (m.live.drop start) = m.stack := by
  have hlength : (m.live.drop start).length = m.sp - start := by
    rw [List.length_drop, length_live hsp]
  have hcell : ∀ i : Nat, (overwrite m.stack start (m.live.drop start))[i]? = m.stack[i]? := by
    intro i
    by_cases hi : start ≤ i ∧ i < m.sp
    · have hinside : (overwrite m.stack start (m.live.drop start))[start + (i - start)]?
          = (m.live.drop start)[i - start]? :=
        getElem?_overwrite_inside (by omega) (by omega)
      rw [List.getElem?_drop, show start + (i - start) = i from by omega] at hinside
      rw [hinside, getElem?_live hi.2]
    · exact getElem?_overwrite_outside (by omega)
  apply Vector.ext
  intro i hi
  simpa [hi] using hcell i

theorem pushed_cons (m : Machine) (value : Word) (values : List Word) :
    m.pushed (value :: values) = (m.pushed [value]).pushed values := by
  simp only [pushed, overwrite, List.length_cons, List.length_nil, Nat.zero_add, Nat.add_assoc,
    Nat.add_comm 1 values.length]

theorem live_push (h : m.sp < stackCapacity) (value : Word) (fp : Nat) :
    live { m with stack := m.stack.setIfInBounds m.sp value, sp := m.sp + 1, fp := fp }
      = m.live ++ [value] := by
  have hlength : m.sp < m.stack.toList.length := by
    rw [Vector.length_toList]
    exact h
  unfold live
  rw [Vector.toList_setIfInBounds, List.take_add_one, List.take_set_of_le (Nat.le_refl _),
    List.getElem?_set_self hlength, Option.toList_some]

/-- Values that fit come behind the live ones. -/
theorem live_pushed {values : List Word} (h : m.sp + values.length ≤ stackCapacity) :
    (m.pushed values).live = m.live ++ values := by
  induction values generalizing m with
  | nil => simp [pushed, overwrite, live]
  | cons value values ih =>
    rw [List.length_cons] at h
    have hfirst : (m.pushed [value]).live = m.live ++ [value] := live_push (by omega) value _
    rw [pushed_cons, ih (by show m.sp + 1 + values.length ≤ _; omega), hfirst]
    simp

/-! ## Taking values -/

/-- There are enough values, and they come from the topmost one down. -/
theorem popMany_of_le {n : Nat} (h : n ≤ m.sp) :
    popMany inst n m = .ok ((List.range n).map m.peek) (m.popped n) := by
  induction n generalizing m with
  | zero => rfl
  | succ n ih =>
    have hpop : pop inst m = .ok (m.peek 0) (m.popped 1) :=
      pop_eq_ok_iff.mpr ⟨by omega, rfl, rfl⟩
    have hrest := ih (m := m.popped 1) (by show n ≤ m.sp - 1; omega)
    have hbelow : (List.range n).map (m.popped 1).peek
        = (List.range n).map (m.peek ∘ Nat.succ) := by
      apply List.map_congr_left
      intro depth _
      unfold peek popped
      rw [Function.comp_apply, show m.sp - 1 - 1 - depth = m.sp - 1 - depth.succ from by omega]
    rw [popMany, bind_of_ok hpop, bind_of_ok hrest, hbelow, List.range_succ_eq_map, List.map_cons,
      List.map_map]
    show EStateM.Result.ok _ { m with sp := m.sp - 1 - n, fp := m.fp - 1 - n } = _
    rw [popped, Nat.sub_sub, Nat.sub_sub, Nat.add_comm 1 n]

/-- There are too few values, and all of them are gone when this is found out. -/
theorem popMany_of_lt {n : Nat} (h : m.sp < n) :
    popMany inst n m = .error (.stackUnderflow inst.op inst.address) (m.popped m.sp) := by
  induction n generalizing m with
  | zero => omega
  | succ n ih =>
    by_cases hsp : m.sp = 0
    · have hpop : pop inst m = .error (.stackUnderflow inst.op inst.address) m := by
        rw [pop, if_pos hsp]
      rw [popMany, bind_of_error hpop, hsp]
      rfl
    · have hpop : pop inst m = .ok (m.peek 0) (m.popped 1) :=
        pop_eq_ok_iff.mpr ⟨hsp, rfl, rfl⟩
      have hrest := ih (m := m.popped 1) (by show m.sp - 1 < n; omega)
      rw [popMany, bind_of_ok hpop, bind_of_error hrest]
      show EStateM.Result.error _
        { m with sp := m.sp - 1 - (m.sp - 1), fp := m.fp - 1 - (m.sp - 1) } = _
      rw [popped, Nat.sub_sub, Nat.sub_sub, show 1 + (m.sp - 1) = m.sp from by omega]

/-! ## Putting values -/

theorem pushAll_of_fits {values : List Word} (h : m.sp + values.length ≤ stackCapacity) :
    pushAll inst values m = .ok () (m.pushed values) := by
  induction values generalizing m with
  | nil => rfl
  | cons value values ih =>
    rw [List.length_cons] at h
    have hpush : push inst value m = .ok () (m.pushed [value]) :=
      push_eq_ok_iff.mpr ⟨by omega, rfl⟩
    have hrest := ih (m := m.pushed [value]) (by show m.sp + 1 + values.length ≤ _; omega)
    rw [pushAll, bind_of_ok hpush, hrest, ← pushed_cons]

/-- There is too little room, and the stack is full when this is found out. -/
theorem pushAll_of_full {values : List Word} (hsp : m.sp ≤ stackCapacity)
    (h : stackCapacity < m.sp + values.length) :
    pushAll inst values m
      = .error (.stackOverflow inst.op inst.address)
          (m.pushed (values.take (stackCapacity - m.sp))) := by
  induction values generalizing m with
  | nil =>
    rw [List.length_nil] at h
    omega
  | cons value values ih =>
    rw [List.length_cons] at h
    by_cases hfree : m.sp < stackCapacity
    · have hpush : push inst value m = .ok () (m.pushed [value]) :=
        push_eq_ok_iff.mpr ⟨hfree, rfl⟩
      have hrest := ih (m := m.pushed [value]) hfree (by show _ < m.sp + 1 + values.length; omega)
      have hroom : stackCapacity - m.sp = stackCapacity - (m.pushed [value]).sp + 1 := by
        show _ = stackCapacity - (m.sp + 1) + 1
        omega
      rw [pushAll, bind_of_ok hpush, hrest, hroom, List.take_succ_cons, ← pushed_cons]
    · have hpush : push inst value m = .error (.stackOverflow inst.op inst.address) m := by
        rw [push, if_neg hfree]
      have hroom : stackCapacity - m.sp = 0 := by omega
      rw [pushAll, bind_of_error hpush, hroom]
      rfl

/-! ## Instructions -/

/-- The operands of an instruction, the topmost one first. -/
def operands (m : Machine) (inst : Instruction) : List Word :=
  (List.range inst.op.pops).map m.peek

/-- The machine when an instruction has taken its operands. -/
def opened (m : Machine) (inst : Instruction) : Machine :=
  { m with ip := inst.next }.popped inst.op.pops

/-- An instruction that has too few values to take does nothing else. -/
theorem step_of_lt (h : m.sp < inst.op.pops) :
    m.step inst = .error (.stackUnderflow inst.op inst.address)
      { m with ip := inst.next, sp := 0, fp := m.fp - m.sp } := by
  have hargs : popMany inst inst.op.pops { m with ip := inst.next }
      = .error (.stackUnderflow inst.op inst.address) (popped { m with ip := inst.next } m.sp) :=
    popMany_of_lt h
  rw [step_eq, bind_of_error hargs, popped, Nat.sub_self]

/-- An instruction that has its operands goes on with what they lead to. -/
theorem step_of_le (h : inst.op.pops ≤ m.sp) :
    m.step inst = settle inst (m.operands inst) (m.opened inst) := by
  have hargs : popMany inst inst.op.pops { m with ip := inst.next }
      = .ok (m.operands inst) (m.opened inst) := popMany_of_le h
  rw [step_eq, bind_of_ok hargs]

/-- An effect that only puts values and jumps. -/
theorem Effect.run_of_fits {e : Effect} (hshift : e.shift = none)
    (h : m.sp + e.pushes.length ≤ stackCapacity) :
    e.run inst m = .ok e.flow { m.pushed e.pushes with ip := e.target.getD m.ip } := by
  rw [Effect.run, bind_of_ok (pushAll_of_fits h), hshift]
  rcases e.target with _ | address
  · rfl
  · rfl

theorem Effect.run_of_full {e : Effect} (hsp : m.sp ≤ stackCapacity)
    (h : stackCapacity < m.sp + e.pushes.length) :
    e.run inst m = .error (.stackOverflow inst.op inst.address)
      (m.pushed (e.pushes.take (stackCapacity - m.sp))) := by
  rw [Effect.run, bind_of_error (pushAll_of_full hsp h)]

end StackMachine.Machine
