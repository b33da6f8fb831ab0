/-
Moving the stack pointer by itself.

Three operations move the stack pointer and leave the frame pointer where it is: one step up,
one step down, and to a distance below the frame pointer. The last one undoes the others. It
takes the distance off the stack, so that pushing this moves the frame pointer up and taking it
moves it down again, and what is then measured from is the frame pointer as it was before; where
the stack pointer had been does not enter.

Steps up and down are one thing with two directions: an operation has a `drift` of one or minus
one, and it can be executed exactly if the stack pointer stays within the stack. A row of equal
steps therefore goes through exactly if its end lies within the stack, and if not, it stops at
the bound.
-/
import StackMachine.Proofs.Machine.Cells

set_option autoImplicit false

namespace StackMachine

namespace Op

/-- How far an operation moves the stack pointer by itself, where that is the same each time. -/
def drift : Op → Int
  | .spi => 1
  | .spd => -1
  | _ => 0

/-- The fault of an operation that would move the stack pointer out of the stack. -/
def stuck (op : Op) (address : Nat) : Fault :=
  if op = .spi then .stackOverflow op address else .stackUnderflow op address

end Op

namespace Machine

open Exec

variable {m m' : Machine} {inst : Instruction} {insts more : List Instruction} {op : Op}

/-! ## Steps in sequence -/

/-- Executes instructions one after the other, up to the first that fails. -/
def stepAll : List Instruction → Machine → EStateM.Result Fault Machine Unit
  | [], m => .ok () m
  | inst :: insts, m =>
    match m.step inst with
    | .ok _ m' => stepAll insts m'
    | .error fault m' => .error fault m'

theorem stepAll_of_ok {flow : Flow} (h : m.step inst = .ok flow m') :
    stepAll (inst :: insts) m = stepAll insts m' := by
  rw [stepAll, h]

theorem stepAll_of_error {fault : Fault} (h : m.step inst = .error fault m') :
    stepAll (inst :: insts) m = .error fault m' := by
  rw [stepAll, h]

theorem stepAll_append (h : stepAll insts m = .ok () m') :
    stepAll (insts ++ more) m = stepAll more m' := by
  induction insts generalizing m with
  | nil =>
    obtain rfl := (EStateM.Result.ok.inj h).2
    rfl
  | cons inst insts ih =>
    rcases hstep : m.step inst with ⟨flow, m₁⟩ | ⟨fault, m₁⟩
    · rw [stepAll_of_ok hstep] at h
      rw [List.cons_append, stepAll_of_ok hstep, ih h]
    · rw [stepAll_of_error hstep] at h
      simp at h

/-! ## One step up or down -/

/-- A step that stays within the stack. -/
theorem step_of_drift (hop : inst.op = .spi ∨ inst.op = .spd)
    (hlow : 0 ≤ m.sp + inst.op.drift) (hhigh : m.sp + inst.op.drift ≤ stackCapacity) :
    m.step inst
      = .ok .next { m with sp := (m.sp + inst.op.drift).toNat, ip := inst.next } := by
  rcases hop with hop | hop
  · have hsp : m.sp < stackCapacity := by
      simp only [hop, Op.drift] at hhigh
      omega
    have hraise : raise inst { m with ip := inst.next }
        = .ok () { m with sp := m.sp + 1, ip := inst.next } :=
      raise_eq_ok_iff.mpr ⟨hsp, rfl⟩
    simp only [step, operate, hop, Op.drift]
    exact bind_of_ok hraise _
  · have hsp : m.sp ≠ 0 := by
      simp only [hop, Op.drift] at hlow
      omega
    have hlower : lower inst { m with ip := inst.next }
        = .ok () { m with sp := m.sp - 1, ip := inst.next } :=
      lower_eq_ok_iff.mpr ⟨hsp, rfl⟩
    have hdown : ((m.sp : Int) + -1).toNat = m.sp - 1 := by omega
    simp only [step, operate, hop, Op.drift, hdown]
    exact bind_of_ok hlower _

/-- A step that would leave the stack. -/
theorem step_of_stuck (hop : inst.op = .spi ∨ inst.op = .spd) (hsp : m.sp ≤ stackCapacity)
    (h : m.sp + inst.op.drift < 0 ∨ stackCapacity < m.sp + inst.op.drift) :
    m.step inst = .error (inst.op.stuck inst.address) { m with ip := inst.next } := by
  rcases hop with hop | hop
  · have hfull : ¬ m.sp < stackCapacity := by
      simp only [hop, Op.drift] at h
      omega
    have hraise : raise inst { m with ip := inst.next }
        = .error (inst.op.stuck inst.address) { m with ip := inst.next } := by
      rw [raise, if_neg hfull, Op.stuck, if_pos hop]
    simp only [step, operate, hop]
    rw [bind_of_error hraise, hop]
  · have hempty : m.sp = 0 := by
      simp only [hop, Op.drift] at h
      omega
    have hlower : lower inst { m with ip := inst.next }
        = .error (inst.op.stuck inst.address) { m with ip := inst.next } := by
      rw [lower, if_pos hempty, Op.stuck, if_neg (by simp [hop])]
    simp only [step, operate, hop]
    rw [bind_of_error hlower, hop]

/-- Where a machine that executes instructions one after the other comes to. -/
def exit (m : Machine) (insts : List Instruction) : Nat :=
  (insts.getLast?.map Instruction.next).getD m.ip

theorem exit_cons (m : Machine) (sp : Nat) (inst : Instruction) (insts : List Instruction) :
    exit { m with sp := sp, ip := inst.next } insts = exit m (inst :: insts) := by
  unfold exit
  rw [List.getLast?_cons, Option.map_some, Option.getD_some]
  rcases insts.getLast? with _ | last
  · rfl
  · rfl

/-! ## Rows of equal steps -/

/-- A row of equal steps goes through if its end lies within the stack. -/
theorem stepAll_of_drift (hop : op = .spi ∨ op = .spd) (hops : ∀ inst ∈ insts, inst.op = op)
    (hsp : m.sp ≤ stackCapacity) (hlow : 0 ≤ m.sp + insts.length * op.drift)
    (hhigh : m.sp + insts.length * op.drift ≤ stackCapacity) :
    stepAll insts m
      = .ok () { m with
          sp := (m.sp + insts.length * op.drift).toNat
          ip := m.exit insts } := by
  induction insts generalizing m with
  | nil => simp [stepAll, exit]
  | cons inst insts ih =>
    have hinst : inst.op = op := hops inst List.mem_cons_self
    have hdrift : op.drift = 1 ∨ op.drift = -1 := by
      rcases hop with rfl | rfl
      · exact .inl rfl
      · exact .inr rfl
    rw [List.length_cons, Int.natCast_succ, Int.add_mul, Int.one_mul] at hlow hhigh ⊢
    -- the pointer moves one way, so it is within the stack on the way if it is at both ends
    have hnext : 0 ≤ m.sp + inst.op.drift ∧ m.sp + inst.op.drift ≤ stackCapacity := by
      rw [hinst]
      rcases hdrift with hdrift | hdrift
      · rw [hdrift] at hlow hhigh ⊢
        omega
      · rw [hdrift] at hlow hhigh ⊢
        omega
    have hstep := step_of_drift (by rwa [hinst]) hnext.1 hnext.2
    rw [hinst] at hstep hnext
    have hcast : (((m.sp + op.drift).toNat : Nat) : Int) = m.sp + op.drift :=
      Int.toNat_of_nonneg hnext.1
    have hsum : (m.sp : Int) + op.drift + insts.length * op.drift
        = m.sp + (insts.length * op.drift + op.drift) := by
      omega
    have hrest := ih (m := { m with sp := (m.sp + op.drift).toNat, ip := inst.next })
      (fun other hother => hops other (List.mem_cons_of_mem inst hother))
      (by show (m.sp + op.drift).toNat ≤ stackCapacity; omega)
      (by show 0 ≤ (((m.sp + op.drift).toNat : Nat) : Int) + _; rw [hcast, hsum]; exact hlow)
      (by show (((m.sp + op.drift).toNat : Nat) : Int) + _ ≤ _; rw [hcast, hsum]; exact hhigh)
    rw [exit_cons] at hrest
    rw [stepAll_of_ok hstep, hrest]
    show EStateM.Result.ok () { m with
      sp := ((((m.sp + op.drift).toNat : Nat) : Int) + _).toNat, ip := _ } = _
    rw [hcast, hsum]

/-- A row of equal steps that is within the stack after `k` of them and not after `k + 1` stops
there. -/
theorem stepAll_of_stuck (hop : op = .spi ∨ op = .spd) (hops : ∀ inst ∈ insts, inst.op = op)
    (hsp : m.sp ≤ stackCapacity) {k bound : Nat} (hk : k < insts.length)
    (hbound : m.sp + k * op.drift = bound) (hwithin : bound ≤ stackCapacity)
    (hbeyond : bound + op.drift < 0 ∨ stackCapacity < bound + op.drift) :
    ∃ inst, insts[k]? = some inst
      ∧ (∃ mk, stepAll (insts.take k) m = .ok () mk)
      ∧ stepAll insts m
        = .error (op.stuck inst.address) { m with sp := bound, ip := inst.next } := by
  have hlength : (insts.take k).length = k := List.length_take_of_le (by omega)
  have htake := stepAll_of_drift hop (fun inst hinst => hops inst (List.mem_of_mem_take hinst)) hsp
    (by rw [hlength, hbound]; omega) (by rw [hlength, hbound]; exact_mod_cast hwithin)
  rw [hlength, hbound, Int.toNat_natCast] at htake
  -- after the steps that go through the pointer is at the bound, and the next one would leave it
  obtain ⟨inst, hget⟩ : ∃ inst, insts[k] = inst := ⟨_, rfl⟩
  have hinst : inst.op = op := hops inst (hget ▸ List.getElem_mem hk)
  have hsplit : insts = insts.take k ++ inst :: insts.drop (k + 1) := by
    rw [← hget, ← List.drop_eq_getElem_cons hk, List.take_append_drop]
  have hstep := step_of_stuck (m := { m with sp := bound, ip := m.exit (insts.take k) })
    (by rwa [hinst]) hwithin (by rwa [hinst])
  refine ⟨inst, by rw [List.getElem?_eq_getElem hk, hget], ⟨_, htake⟩, ?_⟩
  calc stepAll insts m
      = stepAll (insts.take k ++ inst :: insts.drop (k + 1)) m := congrArg (stepAll · m) hsplit
    _ = .error (inst.op.stuck inst.address) { m with sp := bound, ip := inst.next } := by
        rw [stepAll_append htake, stepAll_of_error hstep]
    _ = .error (op.stuck inst.address) { m with sp := bound, ip := inst.next } := by rw [hinst]

/-! ## Placing the stack pointer -/

/-- The two pointers that are left, or the fault. -/
def pointers : EStateM.Result Fault Machine Unit → Except Fault (Nat × Nat)
  | .ok _ m => .ok (m.sp, m.fp)
  | .error fault _ => .error fault

/-- Steps up and down do not move the frame pointer. -/
theorem fp_of_drift {flow : Flow} (hop : inst.op = .spi ∨ inst.op = .spd)
    (h : m.step inst = .ok flow m') : m'.fp = m.fp := by
  unfold step operate at h
  rcases hop with hop | hop
  · rw [hop] at h
    obtain ⟨_, mid, hraise, hflow⟩ := Exec.bind_eq_ok_iff.mp h
    obtain ⟨-, rfl⟩ := raise_eq_ok_iff.mp hraise
    rw [← (EStateM.Result.ok.inj hflow).2]
  · rw [hop] at h
    obtain ⟨_, mid, hlower, hflow⟩ := Exec.bind_eq_ok_iff.mp h
    obtain ⟨-, rfl⟩ := lower_eq_ok_iff.mp hlower
    rw [← (EStateM.Result.ok.inj hflow).2]

theorem fp_of_drifts (hops : ∀ inst ∈ insts, inst.op = .spi ∨ inst.op = .spd)
    (h : stepAll insts m = .ok () m') : m'.fp = m.fp := by
  induction insts generalizing m with
  | nil => rw [(EStateM.Result.ok.inj h).2]
  | cons inst insts ih =>
    rcases hstep : m.step inst with ⟨flow, m₁⟩ | ⟨fault, m₁⟩
    · rw [stepAll_of_ok hstep] at h
      rw [ih (fun other hother => hops other (List.mem_cons_of_mem inst hother)) h]
      exact fp_of_drift (hops inst List.mem_cons_self) hstep
    · rw [stepAll_of_error hstep] at h
      simp at h

/-- Placing the stack pointer takes the distance off the stack, and measures from the frame
pointer as it is then. -/
theorem step_of_place (hop : inst.op = .sp) (hsp : m.sp ≠ 0) :
    m.step inst =
      if (m.peek 0).toNat ≤ m.fp - 1 ∧ m.fp - 1 - (m.peek 0).toNat ≤ stackCapacity then
        .ok .next { m with sp := m.fp - 1 - (m.peek 0).toNat, fp := m.fp - 1, ip := inst.next }
      else
        .error (.stackPointerOutOfBounds .sp inst.address)
          { m with sp := m.sp - 1, fp := m.fp - 1, ip := inst.next } := by
  have hpop : pop inst { m with ip := inst.next }
      = .ok (m.peek 0) { m with sp := m.sp - 1, fp := m.fp - 1, ip := inst.next } :=
    pop_eq_ok_iff.mpr ⟨hsp, rfl, rfl⟩
  simp only [step, operate, hop]
  rw [bind_of_ok hpop]
  by_cases h : (m.peek 0).toNat ≤ m.fp - 1 ∧ m.fp - 1 - (m.peek 0).toNat ≤ stackCapacity
  · rw [if_pos h]
    exact bind_of_ok (place_eq_ok_iff.mpr ⟨h, rfl⟩) _
  · rw [if_neg h]
    refine bind_of_error ?_ _
    rw [place, if_neg h, hop]

/-- Pushing a distance and placing the stack pointer there leaves the frame pointer as it was,
and the stack pointer at that distance below it, wherever it has been. -/
theorem stepAll_of_place {put place : Instruction} {a : Word} (hput : put.op = .push)
    (hoperand : put.operand = some a) (hplace : place.op = .sp) (hsp : m.sp < stackCapacity) :
    pointers (stepAll [put, place] m) =
      if 0 ≤ (m.fp : Int) - a.toNat ∧ (m.fp : Int) - a.toNat ≤ stackCapacity then
        .ok (((m.fp : Int) - a.toNat).toNat, m.fp)
      else .error (.stackPointerOutOfBounds .sp place.address) := by
  -- The value is pushed above the stack pointer, and both pointers go up by one. Taking it off
  -- again brings the frame pointer back before the distance is measured from it.
  let m₁ : Machine :=
    { m with
      stack := m.stack.setIfInBounds m.sp a
      sp := m.sp + 1
      fp := m.fp + 1
      ip := put.next }
  have hstep : m.step put = .ok .next m₁ := by
    have hpush : push put a { m with ip := put.next } = .ok () m₁ :=
      push_eq_ok_iff.mpr ⟨hsp, rfl⟩
    simp only [step, operate, hput, hoperand]
    exact bind_of_ok hpush _
  have htop : m₁.peek 0 = a := by
    show ((m.stack.setIfInBounds m.sp a)[m.sp + 1 - 1 - 0]?).getD 0 = a
    rw [Nat.add_sub_cancel, Nat.sub_zero, Vector.getElem?_setIfInBounds_self_of_lt hsp]
    rfl
  have hfp : m₁.fp - 1 = m.fp := Nat.add_sub_cancel m.fp 1
  have hstep' := step_of_place (m := m₁) hplace (Nat.succ_ne_zero m.sp)
  rw [htop, hfp] at hstep'
  rw [stepAll_of_ok hstep]
  by_cases h : a.toNat ≤ m.fp ∧ m.fp - a.toNat ≤ stackCapacity
  · have htarget : m.fp - a.toNat = ((m.fp : Int) - a.toNat).toNat := by omega
    rw [if_pos h] at hstep'
    rw [if_pos (by omega), stepAll_of_ok hstep', ← htarget]
    rfl
  · rw [if_neg h] at hstep'
    rw [if_neg (by omega), stepAll_of_error hstep']
    rfl

/-! ## The frame -/

theorem ops_of_expand {n : Int} (h : insts.map (·.op) = Pseudo.spr.expand n) :
    insts.length = n.natAbs ∧ ∀ inst ∈ insts, inst.op = if n < 0 then .spd else .spi := by
  have hlength := congrArg List.length h
  rw [List.length_map, Pseudo.expand, List.length_replicate] at hlength
  refine ⟨hlength, ?_⟩
  intro inst hinst
  have hmem : inst.op ∈ Pseudo.spr.expand n := h ▸ List.mem_map_of_mem hinst
  exact (List.mem_replicate.mp hmem).2

section Expansion

variable {n : Int} (hsp : m.sp ≤ stackCapacity) (hops : insts.map (·.op) = Pseudo.spr.expand n)

include hsp hops

/-- A count that leads to a place within the stack. -/
theorem stepAll_of_within (hlow : 0 ≤ m.sp + n) (hhigh : m.sp + n ≤ stackCapacity) :
    stepAll insts m = .ok () { m with sp := (m.sp + n).toNat, ip := m.exit insts } := by
  obtain ⟨hlength, hop⟩ := ops_of_expand hops
  -- the count's sign is the direction of each step, and its size their number
  by_cases hn : n < 0
  · rw [if_pos hn] at hop
    have hend : (m.sp : Int) + insts.length * Op.spd.drift = m.sp + n := by
      rw [hlength, Op.drift]
      omega
    have hrow := stepAll_of_drift (.inr rfl) hop hsp (by rwa [hend]) (by rwa [hend])
    rwa [hend] at hrow
  · rw [if_neg hn] at hop
    have hend : (m.sp : Int) + insts.length * Op.spi.drift = m.sp + n := by
      rw [hlength, Op.drift]
      omega
    have hrow := stepAll_of_drift (.inl rfl) hop hsp (by rwa [hend]) (by rwa [hend])
    rwa [hend] at hrow

/-- A count that leads above the stack. -/
theorem stepAll_of_above (h : stackCapacity < m.sp + n) :
    ∃ inst, insts[stackCapacity - m.sp]? = some inst
      ∧ (∃ mk, stepAll (insts.take (stackCapacity - m.sp)) m = .ok () mk)
      ∧ stepAll insts m = .error (.stackOverflow .spi inst.address)
          { m with sp := stackCapacity, ip := inst.next } := by
  obtain ⟨hlength, hop⟩ := ops_of_expand hops
  rw [if_neg (by omega)] at hop
  refine stepAll_of_stuck (.inl rfl) hop hsp (by omega) ?_ (Nat.le_refl _) (.inr ?_)
  · rw [Op.drift]
    omega
  · rw [Op.drift]
    omega

/-- A count that leads below the stack. -/
theorem stepAll_of_below (h : m.sp + n < 0) :
    ∃ inst, insts[m.sp]? = some inst
      ∧ (∃ mk, stepAll (insts.take m.sp) m = .ok () mk)
      ∧ stepAll insts m = .error (.stackUnderflow .spd inst.address)
          { m with sp := 0, ip := inst.next } := by
  obtain ⟨hlength, hop⟩ := ops_of_expand hops
  rw [if_pos (by omega)] at hop
  refine stepAll_of_stuck (.inr rfl) hop hsp (by omega) ?_ (Nat.zero_le _) (.inl ?_)
  · rw [Op.drift]
    omega
  · rw [Op.drift]
    omega

end Expansion

/-- **The stack pointer is placed relative to the frame.** Take a machine whose stack pointer
is within the stack.

After any steps up and down that leave room for a value, pushing a distance and placing the
stack pointer leaves it that distance below the frame pointer that there was at first, and the
frame pointer where it was; or it fails, if there is no such place within the stack. The steps
up and down have no part in this.

The expansion of a count goes through exactly if the count leads to a place within the stack.
Then nothing is changed but the stack pointer and where the machine goes on. Otherwise the
stack pointer is moved to the end of the stack in that direction, and the next step fails. -/
theorem place_relative_to_frame (hsp : m.sp ≤ stackCapacity) :
    (∀ (insts : List Instruction) (m₁ : Machine) (put place : Instruction) (a : Word),
      (∀ inst ∈ insts, inst.op = .spi ∨ inst.op = .spd) → stepAll insts m = .ok () m₁ →
      m₁.sp < stackCapacity → put.op = .push → put.operand = some a → place.op = .sp →
      pointers (stepAll (insts ++ [put, place]) m) =
        if 0 ≤ (m.fp : Int) - a.toNat ∧ (m.fp : Int) - a.toNat ≤ stackCapacity then
          .ok (((m.fp : Int) - a.toNat).toNat, m.fp)
        else .error (.stackPointerOutOfBounds .sp place.address))
    ∧ ∀ (n : Int) (insts : List Instruction), insts.map (·.op) = Pseudo.spr.expand n →
      ((∃ m', stepAll insts m = .ok () m') ↔ 0 ≤ m.sp + n ∧ m.sp + n ≤ stackCapacity)
      ∧ (∀ m', stepAll insts m = .ok () m' →
        m' = { m with sp := (m.sp + n).toNat, ip := m.exit insts })
      ∧ (stackCapacity < m.sp + n → ∃ inst, insts[stackCapacity - m.sp]? = some inst
        ∧ (∃ mk, stepAll (insts.take (stackCapacity - m.sp)) m = .ok () mk)
        ∧ stepAll insts m = .error (.stackOverflow .spi inst.address)
            { m with sp := stackCapacity, ip := inst.next })
      ∧ (m.sp + n < 0 → ∃ inst, insts[m.sp]? = some inst
        ∧ (∃ mk, stepAll (insts.take m.sp) m = .ok () mk)
        ∧ stepAll insts m = .error (.stackUnderflow .spd inst.address)
            { m with sp := 0, ip := inst.next }) := by
  constructor
  · intro insts m₁ put place a hops hsteps hroom hput hoperand hplace
    rw [stepAll_append hsteps, stepAll_of_place hput hoperand hplace hroom,
      fp_of_drifts hops hsteps]
  · intro n insts hops
    have hwithin : ∀ {m'}, stepAll insts m = .ok () m' →
        0 ≤ m.sp + n ∧ m.sp + n ≤ stackCapacity := by
      intro m' hsteps
      -- on either side of the stack the row fails
      by_cases hlow : m.sp + n < 0
      · obtain ⟨inst, -, -, hfails⟩ := stepAll_of_below hsp hops hlow
        rw [hsteps] at hfails
        simp at hfails
      by_cases hhigh : stackCapacity < m.sp + n
      · obtain ⟨inst, -, -, hfails⟩ := stepAll_of_above hsp hops hhigh
        rw [hsteps] at hfails
        simp at hfails
      · exact ⟨by omega, by omega⟩
    refine ⟨⟨?_, ?_⟩, ?_, stepAll_of_above hsp hops, stepAll_of_below hsp hops⟩
    · rintro ⟨m', hsteps⟩
      exact hwithin hsteps
    · rintro ⟨hlow, hhigh⟩
      exact ⟨_, stepAll_of_within hsp hops hlow hhigh⟩
    · intro m' hsteps
      obtain ⟨hlow, hhigh⟩ := hwithin hsteps
      rw [stepAll_of_within hsp hops hlow hhigh] at hsteps
      exact (EStateM.Result.ok.inj hsteps).2.symm

/-- Three live cells under a frame pointer of five: two steps down and one up are forgotten, a
distance of six is too far, and of 255 steps up the first 253 succeed. -/
theorem place_relative_to_frame_three :
    let m : Machine := { load #[] with sp := 3, fp := 5 }
    let steps : List Instruction := [⟨0, .spd, none⟩, ⟨1, .spd, none⟩, ⟨2, .spi, none⟩]
    let put : Word → Instruction := fun a => ⟨3, .push, some a⟩
    let row : List Instruction := (List.range 255).map fun k => ⟨k, .spi, none⟩
    m.sp ≤ stackCapacity
    ∧ pointers (stepAll (steps ++ [put 1, ⟨5, .sp, none⟩]) m) = .ok (4, 5)
    ∧ pointers (stepAll (steps ++ [put 6, ⟨5, .sp, none⟩]) m)
      = .error (.stackPointerOutOfBounds .sp 5)
    ∧ stepAll row m = .error (.stackOverflow .spi 253) { m with sp := 256, ip := 254 } := by
  intro m steps put row
  have hsp : m.sp ≤ stackCapacity := by decide
  obtain ⟨hplace, hexpand⟩ := place_relative_to_frame hsp
  have hsteps : stepAll steps m = .ok () { m with sp := 2, ip := 3 } := rfl
  have hops : ∀ inst ∈ steps, inst.op = .spi ∨ inst.op = .spd := by decide
  refine ⟨hsp, ?_, ?_, ?_⟩
  · exact hplace steps _ (put 1) ⟨5, .sp, none⟩ 1 hops hsteps (by decide) rfl rfl rfl
  · exact hplace steps _ (put 6) ⟨5, .sp, none⟩ 6 hops hsteps (by decide) rfl rfl rfl
  · have hrow : row.map (·.op) = Pseudo.spr.expand 255 := by decide +kernel
    obtain ⟨-, -, habove, -⟩ := hexpand 255 row hrow
    obtain ⟨inst, hinst, -, hfails⟩ := habove (by decide)
    obtain rfl : ⟨253, .spi, none⟩ = inst := by
      have hget : row[253]? = some ⟨253, .spi, none⟩ := by decide +kernel
      exact Option.some.inj (hget.symm.trans hinst)
    exact hfails

end Machine

end StackMachine
