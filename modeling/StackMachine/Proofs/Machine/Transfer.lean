/-
Where an instruction goes on.

The address of the next instruction is decided in two places: the machine moves on
behind an instruction before it works, and an operation that transfers control goes to
the topmost value instead, if its condition holds of the two values below. `target?` says
so by looking at the stack from outside. Nothing else touches the address, so after an
instruction that completes it is the target or the address behind
(`ip_of_step_ok`), and after one that faults it is always the address behind
(`ip_of_step_error`): whatever can go wrong does so before the jump.
-/
import StackMachine.Proofs.Machine.Cells
import StackMachine.Proofs.Machine.Turn

set_option autoImplicit false

namespace StackMachine

/-- Whether an operation transfers control, when `b` and `c` are the second and the third
value on the stack. -/
def Op.transfers (op : Op) (b c : Word) : Bool :=
  match op with
  | .jmp | .proc | .ret => true
  | .jmpz => b == 0
  | .jmpnz => b != 0
  | .jmpe => c == b
  | .jmpne => c != b
  | .jmpg => c > b
  | .jmpge => c ≥ b
  | .jmpl => c < b
  | .jmple => c ≤ b
  | _ => false

namespace Machine

open Exec

variable {α β : Type} {m m' : Machine} {inst : Instruction} {flow : Flow} {fault : Fault}

/-- Where an instruction transfers control to, if it does. -/
def target? (m : Machine) (inst : Instruction) : Option Nat :=
  if inst.op.transfers (m.peek 1) (m.peek 2) then some (m.peek 0).toNat else none

/-- Where the step that a machine makes transfers control to. A step that faults
transfers none. -/
def transfer? (m : Machine) : Option Nat :=
  match m.fetch with
  | .error _ => none
  | .ok inst =>
    match m.step inst with
    | .error _ _ => none
    | .ok _ _ => m.target? inst

theorem transfer?_of_step_ok (hfetch : m.fetch = .ok inst) (hstep : m.step inst = .ok flow m') :
    m.transfer? = m.target? inst := by
  simp only [transfer?, hfetch, hstep]

/-! ## Work that stays where it is -/

/-- A piece of work that leaves the address of the next instruction alone, whether it
succeeds or not. -/
def Stays (x : Exec α) : Prop :=
  ∀ m, (final (x m)).ip = m.ip

theorem Stays.ip_of_ok {x : Exec α} {a : α} (hx : Stays x) (h : x m = .ok a m') :
    m'.ip = m.ip := by
  have hstays := hx m
  rwa [h, final_ok] at hstays

theorem Stays.ip_of_error {x : Exec α} (hx : Stays x) (h : x m = .error fault m') :
    m'.ip = m.ip := by
  have hstays := hx m
  rwa [h, final_error] at hstays

theorem stays_pure (a : α) : Stays (pure a : Exec α) :=
  fun _ => rfl

theorem stays_bind {x : Exec α} {f : α → Exec β} (hx : Stays x) (hf : ∀ a, Stays (f a)) :
    Stays (x >>= f) := by
  intro m
  rcases h : x m with ⟨a, m₁⟩ | ⟨fault, m₁⟩
  · rw [bind_of_ok h, hf a m₁, hx.ip_of_ok h]
  · rw [bind_of_error h, final_error, hx.ip_of_error h]

theorem stays_pop : Stays (pop inst) := by
  intro m
  unfold pop
  split
  · rfl
  · rfl

theorem stays_push (value : Word) : Stays (push inst value) := by
  intro m
  unfold push
  split
  · rfl
  · rfl

theorem stays_popMany (n : Nat) : Stays (popMany inst n) := by
  induction n with
  | zero => exact stays_pure []
  | succ n ih =>
    refine stays_bind stays_pop ?_
    intro a
    refine stays_bind ih ?_
    intro rest
    exact stays_pure (a :: rest)

theorem stays_pushAll (values : List Word) : Stays (pushAll inst values) := by
  induction values with
  | nil => exact stays_pure ()
  | cons value values ih =>
    refine stays_bind (stays_push value) ?_
    intro _
    exact ih

theorem stays_shift (shift : Option Shift) :
    Stays (shift.elim (pure ()) (Shift.run inst) : Exec Unit) := by
  intro m
  rcases shift with _ | distance | _ | _
  · rfl
  · simp only [Option.elim_some, Shift.run, place]
    split
    · rfl
    · rfl
  · simp only [Option.elim_some, Shift.run, raise]
    split
    · rfl
    · rfl
  · simp only [Option.elim_some, Shift.run, lower]
    split
    · rfl
    · rfl

/-! ## Effects -/

/-- An effect leads to its target, if it has one. -/
theorem ip_of_effect_ok {e : Effect} (h : e.run inst m = .ok flow m') :
    m'.ip = e.target.getD m.ip := by
  obtain ⟨_, m₁, hpush, h⟩ := Exec.bind_eq_ok_iff.mp h
  obtain ⟨_, m₂, hjump, h⟩ := Exec.bind_eq_ok_iff.mp h
  obtain ⟨_, m₃, hshift, h⟩ := Exec.bind_eq_ok_iff.mp h
  obtain ⟨-, rfl⟩ := EStateM.Result.ok.inj h
  rw [(stays_shift e.shift).ip_of_ok hshift]
  rcases ht : e.target with _ | address
  · rw [ht] at hjump
    obtain ⟨-, rfl⟩ := EStateM.Result.ok.inj hjump
    exact (stays_pushAll e.pushes).ip_of_ok hpush
  · rw [ht] at hjump
    obtain ⟨-, rfl⟩ := EStateM.Result.ok.inj hjump
    rfl

/-- An effect that faults leads nowhere, if it does not both jump and move the stack
pointer by itself: values are pushed before the jump. -/
theorem ip_of_effect_error {e : Effect} (honly : e.target = none ∨ e.shift = none)
    (h : e.run inst m = .error fault m') : m'.ip = m.ip := by
  rcases honly with htarget | hshift
  · have hstays : Stays (e.run inst) := by
      refine stays_bind (stays_pushAll e.pushes) ?_
      intro _
      refine stays_bind ?_ ?_
      · rw [htarget]
        exact stays_pure ()
      · intro _
        refine stays_bind (stays_shift e.shift) ?_
        intro _
        exact stays_pure e.flow
    exact hstays.ip_of_error h
  · rcases hpush : pushAll inst e.pushes m with ⟨⟨⟩, m₁⟩ | ⟨fault', m₁⟩
    · -- neither the jump nor what follows it can fault
      rw [Effect.run, bind_of_ok hpush, hshift] at h
      rcases ht : e.target with _ | address
      · rw [ht] at h
        simp [pure, EStateM.pure, bind, EStateM.bind] at h
      · rw [ht] at h
        simp [pure, EStateM.pure, bind, EStateM.bind, jump] at h
    · rw [Effect.run, bind_of_error hpush] at h
      obtain ⟨-, rfl⟩ := EStateM.Result.error.inj h
      exact (stays_pushAll e.pushes).ip_of_error hpush

/-- No effect both jumps and moves the stack pointer by itself. -/
theorem target_or_shift_of_effect {args : List Word} {e : Effect}
    (h : effect inst args = .ok e) : e.target = none ∨ e.shift = none := by
  rcases hshift : e.shift with _ | shift
  · exact .inr rfl
  · -- the operations that move the stack pointer do nothing else
    left
    have hop := (belongs_of_effect h).shift shift hshift
    obtain ⟨address, op, operand⟩ := inst
    obtain rfl : shift.op = op := hop
    rcases shift with distance | _ | _
    · obtain rfl : _ = e := by simpa [effect, Shift.op] using h
      rfl
    · obtain rfl : _ = e := by simpa [effect, Shift.op] using h
      rfl
    · obtain rfl : _ = e := by simpa [effect, Shift.op] using h
      rfl

/-- The target of an effect is where the instruction transfers control to. -/
theorem target_of_effect {e : Effect}
    (h : effect inst (m.operands inst) = .ok e) : e.target = m.target? inst := by
  obtain ⟨address, op, operand⟩ := inst
  cases op with
  | push =>
    rcases operand with _ | w
    · simp [effect] at h
    · obtain rfl : _ = e := by simpa [effect] using h
      rfl
  | div =>
    by_cases ha : m.peek 0 = 0
    · simp [effect, operands, Op.pops, List.range_succ_eq_map, ha] at h
    · obtain rfl : _ = e := by simpa [effect, operands, Op.pops, List.range_succ_eq_map, ha] using h
      rfl
  | proc =>
    rcases hret : Word.ofNat? (Instruction.next ⟨address, .proc, operand⟩) with _ | ret
    · simp [effect, hret] at h
    · obtain rfl : _ = e := by simpa [effect, hret] using h
      rfl
  | _ =>
    obtain rfl : _ = e := by simpa [effect] using h
    rfl

/-! ## Instructions -/

/-- **Where an instruction goes on** if it completes. -/
theorem ip_of_step_ok (h : m.step inst = .ok flow m') : m'.ip = (m.target? inst).getD inst.next := by
  by_cases hargs : inst.op.pops ≤ m.sp
  · rw [step_of_le hargs, settle] at h
    rcases he : effect inst (m.operands inst) with fault | e
    · simp [he, fail] at h
    · rw [he] at h
      rw [ip_of_effect_ok h, target_of_effect he]
      rfl
  · rw [step_of_lt (by omega)] at h
    simp at h

/-- **Where an instruction goes on** if it faults: nowhere but behind itself. -/
theorem ip_of_step_error (h : m.step inst = .error fault m') : m'.ip = inst.next := by
  rw [step_eq] at h
  rcases hargs : popMany inst inst.op.pops { m with ip := inst.next } with
    ⟨args, m₁⟩ | ⟨fault', m₁⟩
  · have hip : m₁.ip = inst.next := (stays_popMany inst.op.pops).ip_of_ok hargs
    rw [bind_of_ok hargs, settle] at h
    rcases he : effect inst args with fault' | e
    · rw [he] at h
      obtain ⟨-, rfl⟩ := EStateM.Result.error.inj h
      exact hip
    · rw [he] at h
      rw [ip_of_effect_error (target_or_shift_of_effect he) h, hip]
  · rw [bind_of_error hargs] at h
    obtain ⟨-, rfl⟩ := EStateM.Result.error.inj h
    exact (stays_popMany inst.op.pops).ip_of_error hargs

/-- A call that completes has left the address behind it on top of the stack. -/
theorem peek_of_call (hop : inst.op = .proc) (h : m.step inst = .ok flow m') :
    (m'.peek 0).toNat = inst.next := by
  rw [step_eq] at h
  obtain ⟨args, m₁, -, h⟩ := Exec.bind_eq_ok_iff.mp h
  obtain ⟨address, op, operand⟩ := inst
  obtain rfl : op = .proc := hop
  unfold settle at h
  rcases hret : Word.ofNat? (Instruction.next ⟨address, .proc, operand⟩) with _ | ret
  · simp [effect, hret, fail] at h
  · simp only [effect, hret] at h
    obtain ⟨_, m₂, hpush, h⟩ := Exec.bind_eq_ok_iff.mp h
    obtain ⟨_, m₃, hpush, hnone⟩ := Exec.bind_eq_ok_iff.mp hpush
    obtain ⟨hsp, rfl⟩ := push_eq_ok_iff.mp hpush
    obtain ⟨-, rfl⟩ := EStateM.Result.ok.inj hnone
    obtain ⟨-, rfl⟩ := EStateM.Result.ok.inj h
    have htop : (m₁.stack.setIfInBounds m₁.sp ret)[m₁.sp]? = some ret := by
      simp [hsp]
    show (((m₁.stack.setIfInBounds m₁.sp ret)[m₁.sp + 1 - 1 - 0]?).getD 0).toNat = _
    rw [show m₁.sp + 1 - 1 - 0 = m₁.sp from by omega, htop, Option.getD_some]
    exact Word.ofNat?_eq_some_iff.mp hret

/-- No instruction changes the program. -/
theorem kept_program (program : Program) : Kept (fun _ => True) (fun m => m.program = program) where
  move := by
    intro inst m m' hmove hm
    rcases hmove with h | h | h
    · obtain ⟨-, -, rfl⟩ := pop_eq_ok_iff.mp h
      exact hm
    · obtain ⟨-, rfl⟩ := push_eq_ok_iff.mp h
      exact hm
    · obtain ⟨-, rfl⟩ := EStateM.Result.ok.inj h
      exact hm
  shift := by
    intro inst shift m m' _ hrun hm
    rcases shift with distance | _ | _
    · obtain ⟨-, rfl⟩ := place_eq_ok_iff.mp hrun
      exact hm
    · obtain ⟨-, rfl⟩ := raise_eq_ok_iff.mp hrun
      exact hm
    · obtain ⟨-, rfl⟩ := lower_eq_ok_iff.mp hrun
      exact hm

theorem program_of_nth {k : Nat} (hk : m.nth? k = some m') : m'.program = m.program := by
  induction k generalizing m with
  | zero =>
    obtain rfl : m = m' := Option.some.inj hk
    rfl
  | succ k ih =>
    obtain ⟨m₁, hnext, hrest⟩ := nth?_succ_eq_some_iff.mp hk
    obtain ⟨inst, flow, -, hstep, -⟩ := next?_eq_some_iff.mp hnext
    rw [ih hrest]
    exact (kept_program m.program).of_step_ok trivial hstep rfl

end Machine

end StackMachine
