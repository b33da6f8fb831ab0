/-
What is left of the machine when an instruction fails.

An instruction is not all or nothing. It takes its operands before it knows whether it can go
on, and puts its results one by one until there is no more room, so a fault finds the machine
somewhere in between. `Stops` lists the places where this can happen and the machine there.

Nothing that was live is lost in any of them. Taking a value leaves its cell alone, so the
only danger is in results that are put over operands. But the stack has had room for the
operands, so room can run out only for an operation that leaves more values than it takes,
and each of these puts first what it took, every value into its own cell. What comes on top
has at most one cell to go to.
-/
import StackMachine.Proofs.Machine.Table

set_option autoImplicit false

namespace StackMachine

/-- Where a fault leaves the stack pointer, if an instruction raised it. -/
def Fault.Leaves (before after : Nat) : Fault → Prop
  | .stackUnderflow _ _ => after = 0
  | .stackOverflow _ _ => after = stackCapacity
  | .divisionByZero _ => after + 2 = before
  | .stackPointerOutOfBounds _ _ | .returnAddressOutOfRange _ _ _ => after + 1 = before
  | .missingOperand _ _ => after = before
  | .unknownOpcode _ _ | .programEnded _ | .stepLimitExceeded _ => False

namespace Machine

open Exec

variable {m m' : Machine} {inst : Instruction} {fault : Fault}

/-! ## Where an instruction stops -/

/-- How an instruction can fail, with the fault and the machine that it leaves. -/
inductive Stops (inst : Instruction) (m : Machine) : Fault → Machine → Prop where
  /-- There are too few operands; those that there are have been taken. -/
  | taking (h : m.sp < inst.op.pops) :
      Stops inst m (.stackUnderflow inst.op inst.address)
        { m with ip := inst.next, sp := 0, fp := m.fp - m.sp }
  /-- The operands have been taken, and one is no good. -/
  | objecting {fault : Fault} (hle : inst.op.pops ≤ m.sp) (h : Objects inst (m.peek 0) fault) :
      Stops inst m fault (m.opened inst)
  /-- There is too little room for the results; as many as fit have been put. -/
  | putting {values : List Word} (hle : inst.op.pops ≤ m.sp)
      (hvalues : values = inst.results (m.live.drop (m.sp - inst.op.pops)))
      (hlength : values.length = inst.op.pushes)
      (h : stackCapacity < m.sp - inst.op.pops + inst.op.pushes) :
      Stops inst m (.stackOverflow inst.op inst.address)
        ((m.opened inst).pushed (values.take (stackCapacity - (m.sp - inst.op.pops))))
  /-- The stack pointer cannot be moved to where it should be. -/
  | moving {fault : Fault} {shift : Shift} (hle : inst.op.pops ≤ m.sp) (hop : shift.op = inst.op)
      (h : shift.run inst (m.opened inst) = .error fault (m.opened inst)) :
      Stops inst m fault (m.opened inst)

/-- An effect that has room for its values fails only in moving the stack pointer. -/
theorem shift_error_of_effect {e : Effect} (he : effect inst (m.operands inst) = .ok e)
    (hroom : (m.opened inst).sp + e.pushes.length ≤ stackCapacity)
    (h : e.run inst (m.opened inst) = .error fault m') :
    ∃ shift : Shift, shift.op = inst.op ∧ m' = m.opened inst
      ∧ shift.run inst (m.opened inst) = .error fault (m.opened inst) := by
  rcases hshift : e.shift with _ | shift
  · rw [Effect.run_of_fits hshift hroom] at h
    simp at h
  have hop : shift.op = inst.op := (belongs_of_effect he).shift shift hshift
  have htarget : e.target = none := by
    rcases target_or_shift_of_effect he with htarget | hnone
    · exact htarget
    · simp [hshift] at hnone
  -- an operation that moves the stack pointer by itself puts no values
  have hpushes : e.pushes = [] := by
    apply List.eq_nil_of_length_eq_zero
    rw [(row_of_effect he).2.1, ← hop]
    rcases shift with distance | _ | _
    · rfl
    · rfl
    · rfl
  have hrun : e.run inst = shift.run inst >>= fun _ => pure e.flow := by
    rw [Effect.run, hpushes, htarget, hshift]
    rfl
  rw [hrun] at h
  rcases hshift : shift.run inst (m.opened inst) with ⟨⟨⟩, m₁⟩ | ⟨fault', m₁⟩
  · rw [bind_of_ok hshift] at h
    simp [pure, EStateM.pure] at h
  · rw [bind_of_error hshift] at h
    obtain ⟨rfl, rfl⟩ := EStateM.Result.error.inj h
    obtain rfl := eq_of_shift_error hshift
    exact ⟨shift, hop, rfl, hshift⟩

/-- **Failures.** An instruction that fails, on any machine whose stack pointer is within the
stack, has stopped at one of these places. -/
theorem stops_of_step_error (hsp : m.sp ≤ stackCapacity) (h : m.step inst = .error fault m') :
    Stops inst m fault m' := by
  by_cases hlt : m.sp < inst.op.pops
  · rw [step_of_lt hlt] at h
    obtain ⟨rfl, rfl⟩ := EStateM.Result.error.inj h
    exact .taking hlt
  have hle : inst.op.pops ≤ m.sp := by omega
  rcases he : effect inst (m.operands inst) with fault' | e
  · have hobjects := objects_iff.mp (effect_eq_error_iff.mp he)
    rw [step_of_objects hle hobjects] at h
    obtain ⟨rfl, rfl⟩ := EStateM.Result.error.inj h
    exact .objecting hle hobjects
  rw [step_of_effect hle he] at h
  obtain ⟨hresults, hlength, -⟩ := row_of_effect he
  by_cases hroom : (m.opened inst).sp + e.pushes.length ≤ stackCapacity
  · obtain ⟨shift, hop, rfl, hrun⟩ := shift_error_of_effect he hroom h
    exact .moving hle hop hrun
  · have hbound : (m.opened inst).sp ≤ stackCapacity := Nat.le_trans (Nat.sub_le _ _) hsp
    rw [Effect.run_of_full hbound (by omega)] at h
    obtain ⟨rfl, rfl⟩ := EStateM.Result.error.inj h
    rw [reverse_operands hsp hle] at hresults
    refine .putting hle hresults hlength ?_
    rw [← hlength]
    exact Nat.lt_of_not_le hroom

/-! ## What has become of the cells -/

/-- An operation that leaves more values than it takes puts first what it took. -/
theorem exists_results_eq_append {taken : List Word} (hlength : taken.length = inst.op.pops)
    (h : inst.op.pops < inst.op.pushes) : ∃ more, inst.results taken = taken ++ more := by
  obtain ⟨address, op, operand⟩ := inst
  cases op with
  | push =>
    obtain rfl : taken = [] := List.eq_nil_of_length_eq_zero hlength
    exact ⟨operand.toList, rfl⟩
  | dup =>
    obtain ⟨a, rfl⟩ := List.length_eq_one_iff.mp hlength
    exact ⟨[a], rfl⟩
  | dup2 =>
    obtain ⟨b, a, rfl⟩ := List.length_eq_two.mp hlength
    exact ⟨[b, a], rfl⟩
  | ovr =>
    obtain ⟨b, a, rfl⟩ := List.length_eq_two.mp hlength
    exact ⟨[b], rfl⟩
  | _ => simp [Op.pops, Op.pushes] at h

/-- Only one operation leaves more than one value more than it takes, and that is two. -/
theorem pushes_le_or_dup2 (op : Op) : op.pushes ≤ op.pops + 1 ∨ op = .dup2 := by
  cases op <;> decide

/-- When room runs out, the operands are back in their cells. -/
theorem exists_stack_eq_of_full {values : List Word} (hsp : m.sp ≤ stackCapacity)
    (hle : inst.op.pops ≤ m.sp)
    (hvalues : values = inst.results (m.live.drop (m.sp - inst.op.pops)))
    (h : stackCapacity < m.sp - inst.op.pops + inst.op.pushes) :
    ∃ more : List Word, more.length ≤ stackCapacity - m.sp
      ∧ ((m.opened inst).pushed (values.take (stackCapacity - (m.sp - inst.op.pops)))).stack
        = overwrite m.stack m.sp more := by
  have htaken : (m.live.drop (m.sp - inst.op.pops)).length = inst.op.pops := by
    rw [List.length_drop, length_live hsp]
    omega
  obtain ⟨more, hmore⟩ := exists_results_eq_append htaken (by omega)
  refine ⟨more.take (stackCapacity - m.sp), List.length_take_le _ _, ?_⟩
  show overwrite m.stack (m.sp - inst.op.pops) _ = _
  have hroom : stackCapacity - (m.sp - inst.op.pops)
      = (m.live.drop (m.sp - inst.op.pops)).length + (stackCapacity - m.sp) := by
    omega
  rw [hvalues, hmore, hroom, List.take_length_add_append, overwrite_append, overwrite_live_drop hsp,
    htaken, Nat.sub_add_cancel hle]

/-- No cell is changed but possibly one, and that is not a live one. -/
theorem Stops.cell (hsp : m.sp ≤ stackCapacity) (h : Stops inst m fault m') {i : Nat}
    (hi : m'.stack[i]? ≠ m.stack[i]?) : i = 255 ∧ inst.op = .dup2 ∧ m.sp = 255 := by
  rcases h with hlt | ⟨hle, hobjects⟩ | ⟨hle, hvalues, hlength, hfull⟩ | ⟨hle, hop, hrun⟩
  · exact absurd rfl hi
  · exact absurd rfl hi
  · obtain ⟨more, hmore, hstack⟩ := exists_stack_eq_of_full hsp hle hvalues hfull
    rw [hstack] at hi
    have hinside : m.sp ≤ i ∧ i < m.sp + more.length := by
      by_contra houtside
      exact hi (getElem?_overwrite_outside (by omega))
    have hcapacity : stackCapacity = 256 := rfl
    rcases pushes_le_or_dup2 inst.op with hone | hop
    · -- there is no room for even one more value
      omega
    · rw [hop] at hfull
      have hpops : Op.dup2.pops = 2 := rfl
      have hpushes : Op.dup2.pushes = 4 := rfl
      exact ⟨by omega, hop, by omega⟩
  · exact absurd rfl hi

/-! ## What has become of the stack pointer -/

theorem leaves_of_objects (hle : inst.op.pops ≤ m.sp) (h : Objects inst (m.peek 0) fault) :
    fault.Leaves m.sp (m.opened inst).sp := by
  have hopened : (m.opened inst).sp = m.sp - inst.op.pops := rfl
  rcases h with ⟨hop, -⟩ | ⟨hop, -⟩ | ⟨hop, -⟩
  · rw [hop] at hle hopened
    rw [hopened]
    exact Nat.sub_add_cancel hle
  · rw [hop] at hopened
    exact hopened
  · rw [hop] at hle hopened
    rw [hopened]
    exact Nat.sub_add_cancel hle

theorem leaves_of_shift {shift : Shift} (hsp : m.sp ≤ stackCapacity) (hle : inst.op.pops ≤ m.sp)
    (hop : shift.op = inst.op)
    (h : shift.run inst (m.opened inst) = .error fault (m.opened inst)) :
    fault.Leaves m.sp (m.opened inst).sp := by
  have hopened : (m.opened inst).sp = m.sp - shift.op.pops := by
    rw [hop]
    rfl
  rw [← hop] at hle
  rcases shift with distance | _ | _
  · rw [Shift.run, place] at h
    by_cases hwithin : distance ≤ (m.opened inst).fp
        ∧ (m.opened inst).fp - distance ≤ stackCapacity
    · rw [if_pos hwithin] at h
      simp at h
    · rw [if_neg hwithin] at h
      obtain rfl := (EStateM.Result.error.inj h).1
      rw [hopened]
      exact Nat.sub_add_cancel hle
  · rw [Shift.run, raise] at h
    by_cases hfree : (m.opened inst).sp < stackCapacity
    · rw [if_pos hfree] at h
      simp at h
    · rw [if_neg hfree] at h
      obtain rfl := (EStateM.Result.error.inj h).1
      -- no operand was taken, so the stack was full before
      have hsame : (m.opened inst).sp = m.sp := hopened
      show (m.opened inst).sp = stackCapacity
      omega
  · rw [Shift.run, lower] at h
    by_cases hempty : (m.opened inst).sp = 0
    · rw [if_pos hempty] at h
      obtain rfl := (EStateM.Result.error.inj h).1
      exact hempty
    · rw [if_neg hempty] at h
      simp at h

theorem Stops.leaves (hsp : m.sp ≤ stackCapacity) (h : Stops inst m fault m') :
    fault.Leaves m.sp m'.sp := by
  rcases h with hlt | ⟨hle, hobjects⟩ | ⟨hle, hvalues, hlength, hfull⟩ | ⟨hle, hop, hrun⟩
  · rfl
  · exact leaves_of_objects hle hobjects
  · -- values have been put up to the end of the stack
    show m.sp - inst.op.pops + (List.take _ _).length = stackCapacity
    rw [List.length_take, hlength]
    omega
  · exact leaves_of_shift hsp hle hop hrun

/-! ## Live data -/

/-- **A failed step does no damage.** If executing an instruction fails, on a machine whose
stack pointer is within the stack, then every live cell has its value still. The only cell
that can have another value is the last one, and only when it alone was free and the
operation puts two copies on top. Nobody has been told of anything, the machine has gone
on behind the instruction, and the stack pointer is where the fault says.

Addresses, `ip` and the frame pointer are natural numbers here and numbers of machine size in
`lemu`. What is said of `ip` is the same there, unless the instruction was made by hand at one
of the last addresses, so that the one behind it is too great. -/
theorem step_error_spares_live (hsp : m.sp ≤ stackCapacity)
    (h : m.step inst = .error fault m') :
    (∀ i < m.sp, m'.stack[i]? = m.stack[i]?)
    ∧ (∀ i, m'.stack[i]? ≠ m.stack[i]? → i = 255 ∧ inst.op = .dup2 ∧ m.sp = 255)
    ∧ (∀ {σ : Type} (observe : σ → Event → σ) (s : σ),
      m.perform observe inst s = ⟨m', s, .error fault⟩)
    ∧ m'.ip = inst.address + inst.op.size
    ∧ fault.Leaves m.sp m'.sp := by
  have hstops : Stops inst m fault m' := stops_of_step_error hsp h
  refine ⟨?_, ?_, ?_, ip_of_step_error h, hstops.leaves hsp⟩
  · intro i hi
    by_contra hchanged
    obtain ⟨rfl, -, hpointer⟩ := hstops.cell hsp hchanged
    omega
  · intro i hi
    exact hstops.cell hsp hi
  · intro σ observe s
    exact perform_of_error observe h s

/-- With one cell free, two values are copied and the lower one gets there. -/
theorem step_error_spares_live_dup2 :
    let m : Machine :=
      { load #[] with
        stack := (Vector.replicate stackCapacity 0).setIfInBounds 253 7
        sp := 255
        fp := 255 }
    let inst : Instruction := ⟨0, .dup2, none⟩
    m.sp ≤ stackCapacity
    ∧ ∃ m', m.step inst = .error (.stackOverflow .dup2 0) m'
      ∧ m.stack[255]? = some 0 ∧ m'.stack[255]? = some 7
      ∧ (∀ i < 255, m'.stack[i]? = m.stack[i]?) ∧ m'.sp = 256 ∧ m'.ip = 1 := by
  intro m inst
  have hsp : m.sp ≤ stackCapacity := by decide
  have hstep : m.step inst = .error (.stackOverflow .dup2 0)
      ((m.opened inst).pushed [7, 0, 7]) := by
    have hle : inst.op.pops ≤ m.sp := by decide
    have heffect : effect inst (m.operands inst) = .ok { pushes := [7, 0, 7, 0] } := by
      decide +kernel
    exact (step_of_effect hle heffect).trans (Effect.run_of_full (by decide) (by decide))
  obtain ⟨hlive, -, -, hip, hleaves⟩ := step_error_spares_live hsp hstep
  refine ⟨hsp, _, hstep, ?_, ?_, hlive, hleaves, hip⟩
  · decide +kernel
  · decide +kernel

end Machine

end StackMachine
