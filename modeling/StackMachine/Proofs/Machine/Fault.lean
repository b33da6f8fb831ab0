/-
Where faults come from, and which instruction halts.

A fault that arises in executing an instruction names that instruction: its address
and its operation, and some faults only one operation can raise (`Blames`). Fetching
raises other faults, with one exception: an operand can also be found missing while
executing, but not by an instruction that was fetched. So the fault of a run tells at
which stage of its last turn it arose.
-/
import StackMachine.Proofs.Machine.Effect

set_option autoImplicit false

namespace StackMachine

/-- The stages of a turn of the loop. -/
inductive Stage where
  | fetching
  | counting
  | executing
  deriving DecidableEq, Repr

/-- The stage at which a fault ends a run. -/
def Fault.stage : Fault → Stage
  | .unknownOpcode _ _ | .missingOperand _ _ | .programEnded _ => .fetching
  | .stepLimitExceeded _ => .counting
  | .stackUnderflow _ _ | .stackOverflow _ _ | .stackPointerOutOfBounds _ _ | .divisionByZero _
  | .returnAddressOutOfRange _ _ _ => .executing

/-- The address that a fault names. -/
def Fault.address? : Fault → Option Nat
  | .stackUnderflow _ address | .stackOverflow _ address | .stackPointerOutOfBounds _ address
  | .divisionByZero address | .unknownOpcode _ address | .missingOperand _ address
  | .returnAddressOutOfRange _ address _ | .programEnded address => some address
  | .stepLimitExceeded _ => none

namespace Machine

open Exec

variable {m m' : Machine} {inst : Instruction} {fault : Fault}

/-! ## Fetching -/

theorem fetch_eq_ok_iff : m.fetch = .ok inst ↔ decodeAt m.program m.ip = .ok (some inst) := by
  unfold fetch
  rcases decodeAt m.program m.ip with e | (_ | found)
  · simp
  · simp
  · simp

theorem address_of_fetch (h : m.fetch = .ok inst) : inst.address = m.ip :=
  (decodeAt_eq_some (fetch_eq_ok_iff.mp h)).1

theorem operand_of_fetch (h : m.fetch = .ok inst) (hop : inst.op = .push) :
    inst.operand ≠ none := by
  have hdecode := fetch_eq_ok_iff.mp h
  unfold decodeAt at hdecode
  split at hdecode
  · simp at hdecode
  · split at hdecode
    · simp at hdecode
    · split at hdecode
      · -- an operation without operand words is none that pushes its operand
        rename_i op _ harity
        obtain rfl : _ = inst := by simpa using hdecode
        obtain rfl : op = .push := hop
        exact absurd harity (by decide)
      · split at hdecode
        · simp at hdecode
        · obtain rfl : _ = inst := by simpa using hdecode
          simp

theorem stage_of_fetch_error (h : m.fetch = .error fault) : fault.stage = .fetching := by
  unfold fetch at h
  split at h
  · simp at h
  · obtain rfl : _ = fault := by simpa using h
    rfl
  · rename_i e _
    obtain rfl : _ = fault := by simpa using h
    rcases e with word | op
    · rfl
    · rfl

/-! ## Executing -/

/-- The faults that an instruction raises. -/
inductive Blames (inst : Instruction) : Fault → Prop where
  | underflow : Blames inst (.stackUnderflow inst.op inst.address)
  | overflow : Blames inst (.stackOverflow inst.op inst.address)
  | outOfBounds (hop : inst.op = .sp) : Blames inst (.stackPointerOutOfBounds inst.op inst.address)
  | divisor (hop : inst.op = .div) : Blames inst (.divisionByZero inst.address)
  | operand (hop : inst.op = .push) (hoperand : inst.operand = none) :
      Blames inst (.missingOperand inst.op inst.address)
  | ret (hop : inst.op = .proc) (hret : Word.ofNat? inst.next = none) :
      Blames inst (.returnAddressOutOfRange inst.op inst.address inst.next)

theorem Blames.address?_eq (h : Blames inst fault) : fault.address? = some inst.address := by
  rcases h with _ | _ | _ | _ | _ | _
  · rfl
  · rfl
  · rfl
  · rfl
  · rfl
  · rfl

variable {α β : Type}

/-- A piece of work raises no faults but those of the instruction. -/
def Raises (inst : Instruction) (x : Exec α) : Prop :=
  ∀ {m m' : Machine} {fault : Fault}, x m = .error fault m' → Blames inst fault

theorem raises_pure (a : α) : Raises inst (pure a : Exec α) := by
  intro m m' fault h
  exact absurd h (by simp [pure, EStateM.pure])

theorem raises_bind {x : Exec α} {f : α → Exec β} (hx : Raises inst x)
    (hf : ∀ a, Raises inst (f a)) : Raises inst (x >>= f) := by
  intro m m' fault h
  rcases hxm : x m with ⟨a, m₁⟩ | ⟨fault', m₁⟩
  · rw [bind_of_ok hxm] at h
    exact hf a h
  · rw [bind_of_error hxm] at h
    obtain ⟨rfl, -⟩ := EStateM.Result.error.inj h
    exact hx hxm

theorem raises_pop : Raises inst (pop inst) := by
  intro m m' fault h
  unfold pop at h
  split at h
  · obtain ⟨rfl, -⟩ := EStateM.Result.error.inj h
    exact .underflow
  · simp at h

theorem raises_push (value : Word) : Raises inst (push inst value) := by
  intro m m' fault h
  unfold push at h
  split at h
  · simp at h
  · obtain ⟨rfl, -⟩ := EStateM.Result.error.inj h
    exact .overflow

theorem raises_popMany (n : Nat) : Raises inst (popMany inst n) := by
  induction n with
  | zero => exact raises_pure []
  | succ n ih =>
    refine raises_bind raises_pop ?_
    intro a
    refine raises_bind ih ?_
    intro rest
    exact raises_pure (a :: rest)

theorem raises_pushAll (values : List Word) : Raises inst (pushAll inst values) := by
  induction values with
  | nil => exact raises_pure ()
  | cons value values ih =>
    refine raises_bind (raises_push value) ?_
    intro _
    exact ih

theorem raises_shift {shift : Shift} (hop : shift.op = inst.op) :
    Raises inst (shift.run inst) := by
  intro m m' fault h
  rcases shift with distance | _ | _
  · simp only [Shift.run, place] at h
    split at h
    · simp at h
    · obtain ⟨rfl, -⟩ := EStateM.Result.error.inj h
      exact .outOfBounds hop.symm
  · simp only [Shift.run, raise] at h
    split at h
    · simp at h
    · obtain ⟨rfl, -⟩ := EStateM.Result.error.inj h
      exact .overflow
  · simp only [Shift.run, lower] at h
    split at h
    · obtain ⟨rfl, -⟩ := EStateM.Result.error.inj h
      exact .underflow
    · simp at h

theorem raises_effect {e : Effect} (hshift : ∀ shift, e.shift = some shift → shift.op = inst.op) :
    Raises inst (e.run inst) := by
  refine raises_bind (raises_pushAll e.pushes) ?_
  intro _
  refine raises_bind ?_ ?_
  · rcases e.target with _ | address
    · exact raises_pure ()
    · intro m m' fault h
      exact absurd h (by simp [jump])
  · intro _
    refine raises_bind ?_ (fun _ => raises_pure e.flow)
    rcases he : e.shift with _ | shift
    · exact raises_pure ()
    · exact raises_shift (hshift shift he)

/-- What an instruction can object to when it has its operands, the topmost of which is
`a`. -/
inductive Objects (inst : Instruction) (a : Word) : Fault → Prop where
  | divisor (hop : inst.op = .div) (ha : a = 0) : Objects inst a (.divisionByZero inst.address)
  | operand (hop : inst.op = .push) (hoperand : inst.operand = none) :
      Objects inst a (.missingOperand inst.op inst.address)
  | ret (hop : inst.op = .proc) (hret : programCapacity ≤ inst.next) :
      Objects inst a (.returnAddressOutOfRange inst.op inst.address inst.next)

/-- Only three operations ever object, each to one thing. -/
theorem effect_eq_error_iff {args : List Word} :
    effect inst args = .error fault ↔ Objects inst (args.getD 0 0) fault := by
  constructor
  · intro h
    obtain ⟨address, op, operand⟩ := inst
    cases op with
    | push =>
      rcases operand with _ | w
      · obtain rfl : _ = fault := by simpa [effect] using h
        exact .operand rfl rfl
      · simp [effect] at h
    | div =>
      by_cases ha : args.getD 0 0 = 0
      · obtain rfl : _ = fault := by simpa only [effect, if_pos ha, Except.error.injEq] using h
        exact .divisor rfl ha
      · simp only [effect, if_neg ha, reduceCtorEq] at h
    | proc =>
      rcases hret : Word.ofNat? (Instruction.next ⟨address, .proc, operand⟩) with _ | ret
      · obtain rfl : _ = fault := by simpa [effect, hret] using h
        exact .ret rfl (Word.ofNat?_eq_none_iff.mp hret)
      · simp [effect, hret] at h
    | _ =>
      -- any other operation has an effect, whatever its operands are
      simp [effect] at h
  · intro h
    obtain ⟨address, op, operand⟩ := inst
    rcases h with ⟨hop, ha⟩ | ⟨hop, hoperand⟩ | ⟨hop, hret⟩
    · subst hop
      exact if_pos ha
    · subst hop hoperand
      rfl
    · subst hop
      simp only [effect, Word.ofNat?_eq_none_iff.mpr hret]

theorem blames_of_effect {args : List Word} (h : effect inst args = .error fault) :
    Blames inst fault := by
  rcases effect_eq_error_iff.mp h with ⟨hop, -⟩ | ⟨hop, hoperand⟩ | ⟨hop, hret⟩
  · exact .divisor hop
  · exact .operand hop hoperand
  · exact .ret hop (Word.ofNat?_eq_none_iff.mpr hret)

/-- **Faults of an instruction.** Executing an instruction, on any machine and also
when it stands in no program, raises only faults that name it. -/
theorem blames_of_step_error (h : m.step inst = .error fault m') : Blames inst fault := by
  rw [step_eq] at h
  refine raises_bind (raises_popMany inst.op.pops) ?_ h
  intro args
  unfold settle
  rcases he : effect inst args with fault' | e
  · intro m₁ m₂ fault h
    obtain ⟨rfl, -⟩ := EStateM.Result.error.inj h
    exact blames_of_effect he
  · exact raises_effect (belongs_of_effect he).shift

/-- An instruction that was fetched raises its faults while it is executed. -/
theorem stage_of_step_error {at_ : Machine} (hfetch : at_.fetch = .ok inst)
    (hstep : m.step inst = .error fault m') : fault.stage = .executing := by
  rcases blames_of_step_error hstep with _ | _ | _ | _ | ⟨hop, hoperand⟩ | _
  · rfl
  · rfl
  · rfl
  · rfl
  · exact absurd hoperand (operand_of_fetch hfetch hop)
  · rfl

/-! ## Halting -/

theorem step_of_halt (m : Machine) (hop : inst.op = .halt) :
    m.step inst = .ok .halt { m with ip := inst.next } := by
  unfold step operate
  rw [hop]
  rfl

/-- Only the operation that halts does, and it changes nothing but where the machine
goes on. -/
theorem step_eq_halt_iff :
    m.step inst = .ok .halt m' ↔ inst.op = .halt ∧ m' = { m with ip := inst.next } := by
  constructor
  · intro h
    have hop : inst.op = .halt := by
      rw [step_eq] at h
      obtain ⟨args, m₁, -, hsettle⟩ := Exec.bind_eq_ok_iff.mp h
      unfold settle at hsettle
      rcases he : effect inst args with fault | e
      · simp [he, fail] at hsettle
      · rw [he] at hsettle
        -- what is pushed and where the machine goes has no part in how it ends
        obtain ⟨_, _, -, hsettle⟩ := Exec.bind_eq_ok_iff.mp hsettle
        obtain ⟨_, _, -, hsettle⟩ := Exec.bind_eq_ok_iff.mp hsettle
        obtain ⟨_, _, -, hsettle⟩ := Exec.bind_eq_ok_iff.mp hsettle
        exact (belongs_of_effect he).halt (EStateM.Result.ok.inj hsettle).1
    rw [step_of_halt m hop] at h
    exact ⟨hop, (EStateM.Result.ok.inj h).2.symm⟩
  · rintro ⟨hop, rfl⟩
    exact step_of_halt m hop

end Machine

end StackMachine
