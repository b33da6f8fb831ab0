/-
The instruction that a fault is about.

A fault carries an address and, in most cases, an operation. By the time it is raised the
machine has long moved on behind the instruction, and a jump may have brought it to any word
at all, also to one that is the operand of another instruction. What the fault says is
nevertheless true of the program: at its address stands an instruction with its operation,
or else just what kept the machine from reading one there (`Fault.Attested`).

There are only two places where a fault can come from. Fetching looks at one address, and
`decodeAt_cases` lists what it can find there. Executing raises only faults that name the
instruction (`Blames`), and this was decoded at the address it carries. So the address is
in both cases the one that the machine was at before its last turn.
-/
import StackMachine.Proofs.Encoding
import StackMachine.Proofs.Machine.Course
import StackMachine.Proofs.Machine.Transfer

set_option autoImplicit false

namespace StackMachine

/-- An instruction with this operation is decoded at this address. -/
def Stands (program : Program) (op : Op) (address : Nat) : Prop :=
  ∃ operand, decodeAt program address = .ok (some ⟨address, op, operand⟩)

/-- What a fault says of a program is true. A fault about the number of steps says nothing. -/
def Fault.Attested (program : Program) : Fault → Prop
  | .stackUnderflow op address | .stackOverflow op address => Stands program op address
  | .stackPointerOutOfBounds op address => op = .sp ∧ Stands program .sp address
  | .divisionByZero address => Stands program .div address
  | .returnAddressOutOfRange op address ret =>
    op = .proc ∧ Stands program .proc address ∧ ret = address + 1 ∧ 65536 ≤ ret
  | .unknownOpcode word address => program[address]? = some word ∧ ∀ op : Op, op.tag ≠ word
  | .missingOperand op address =>
    (op = .push ∨ op = .db) ∧ program[address]? = some op.tag ∧ address + 1 = program.size
  | .programEnded address => program.size ≤ address
  | .stepLimitExceeded _ => False

/-! ## What is found at an address -/

section Found

variable {program : Program} {address : Nat} {word : Word} {rest : List Word}

theorem getElem?_of_drop (h : program.toList.drop address = word :: rest) :
    program[address]? = some word := by
  have hhead := congrArg List.head? h
  rwa [List.head?_drop, List.head?_cons, Array.getElem?_toList] at hhead

theorem size_of_drop (h : program.toList.drop address = [word]) : address + 1 = program.size := by
  have hlength := congrArg List.length h
  rw [List.length_drop, List.length_singleton, Array.length_toList] at hlength
  omega

/-- What keeps an instruction from being read is attested as the fault that it becomes. -/
theorem attested_of_unread {failure : DecodeError}
    (h : Unread (program.toList.drop address) (some failure)) :
    (Fault.ofDecodeError failure address).Attested program := by
  generalize hwords : program.toList.drop address = words at h
  generalize hfailure : some failure = reason at h
  cases h with
  | done => simp at hfailure
  | unknown hnone =>
    obtain rfl := Option.some.inj hfailure
    refine ⟨getElem?_of_drop hwords, ?_⟩
    -- a word that is a tag is read as the operation whose tag it is
    rintro op rfl
    rw [Op.ofTag?_tag] at hnone
    simp at hnone
  | missing harity =>
    obtain rfl := Option.some.inj hfailure
    exact ⟨Op.eq_push_or_db harity, getElem?_of_drop hwords, size_of_drop hwords⟩

end Found

theorem address?_ofDecodeError (failure : DecodeError) (address : Nat) :
    (Fault.ofDecodeError failure address).address? = some address := by
  cases failure with
  | unknownOpcode word => rfl
  | missingOperand op => rfl

namespace Machine

variable {m m' : Machine} {inst : Instruction} {fault : Fault}

/-! ## The two places where faults come from -/

theorem attested_of_fetch_error (h : m.fetch = .error fault) :
    fault.Attested m.program ∧ fault.address? = some m.ip := by
  unfold fetch at h
  rcases decodeAt_cases m.program m.ip with
    ⟨hwords, hnone⟩ | ⟨bare, rest, -, -, hsome⟩ | ⟨failure, hunread, herror⟩
  · rw [hnone] at h
    obtain rfl := Except.error.inj h
    have hend : m.program.size ≤ m.ip := by simpa using hwords
    exact ⟨hend, rfl⟩
  · rw [hsome] at h
    simp at h
  · rw [herror] at h
    obtain rfl := Except.error.inj h
    exact ⟨attested_of_unread hunread, address?_ofDecodeError failure m.ip⟩

/-- What a machine fetches stands in its program, where the machine is. -/
theorem stands_of_fetch (h : m.fetch = .ok inst) : Stands m.program inst.op inst.address := by
  have hdecode := fetch_eq_ok_iff.mp h
  have haddress := address_of_fetch h
  refine ⟨inst.operand, ?_⟩
  rw [haddress, hdecode, ← haddress]

theorem attested_of_step_error (hfetch : m.fetch = .ok inst)
    (hstep : m.step inst = .error fault m') : fault.Attested m.program := by
  have hstands := stands_of_fetch hfetch
  rcases blames_of_step_error hstep with _ | _ | hop | hop | ⟨hop, hoperand⟩ | ⟨hop, hret⟩
  · exact hstands
  · exact hstands
  · rw [hop] at hstands
    exact ⟨hop, hstands⟩
  · rw [hop] at hstands
    exact hstands
  · -- an instruction that was fetched has its operand
    exact absurd hoperand (operand_of_fetch hfetch hop)
  · -- the address behind the call is no word, and a call is one word long
    have hnext : inst.next = inst.address + 1 := by
      rw [Instruction.next, hop]
      rfl
    have hlarge : 65536 ≤ inst.next := Word.ofNat?_eq_none_iff.mp hret
    rw [hop] at hstands
    exact ⟨hop, hstands, hnext, hlarge⟩

/-! ## Runs -/

/-- A fault came up on machine `m` and left `m'`. -/
inductive Arises (fault : Fault) (m m' : Machine) : Prop where
  /-- There was no instruction; then nothing has happened. -/
  | fetching (hstage : fault.stage = .fetching) (hfetch : m.fetch = .error fault)
      (hsame : m' = m)
  /-- There was one, and it failed. -/
  | executing {inst : Instruction} (hstage : fault.stage = .executing)
      (hfetch : m.fetch = .ok inst) (haddress : inst.address = m.ip)
      (hstep : m.step inst = .error fault m')

theorem Arises.attested (h : Arises fault m m') :
    fault.Attested m.program ∧ fault.address? = some m.ip := by
  rcases h with ⟨-, hfetch, -⟩ | ⟨-, hfetch, haddress, hstep⟩
  · exact attested_of_fetch_error hfetch
  · refine ⟨attested_of_step_error hfetch hstep, ?_⟩
    rw [← haddress]
    exact (blames_of_step_error hstep).address?_eq

/-- The fault that ends a course came up on a machine that the course comes by. -/
theorem Course.arises {options : Options} {attempted : Nat}
    (h : Course options m attempted m' (.faulted fault)) (hcounting : fault.stage ≠ .counting) :
    ∃ k mk, m.nth? k = some mk ∧ Arises fault mk m' := by
  rcases h with ⟨hk, -, hfetch⟩ | _ | ⟨hk, -, hfetch, hstep⟩ | _
  · exact ⟨_, _, hk, .fetching (stage_of_fetch_error hfetch) hfetch rfl⟩
  · exact absurd rfl hcounting
  · exact ⟨_, _, hk, .executing (stage_of_step_error hfetch hstep) hfetch
      (address_of_fetch hfetch) hstep⟩

theorem stage_ne_counting (h : ∀ limit, fault ≠ .stepLimitExceeded limit) :
    fault.stage ≠ .counting := by
  cases fault with
  | stepLimitExceeded limit => exact absurd rfl (h limit)
  | _ => simp [Fault.stage]

/-- **Faults point at their instruction.** If a run of a program ends with a fault, and not
because of its limit, then what the fault says of the program is true: there is an
instruction with the named operation at the named address, the one operation that can raise
the fault where there is only one; or a word that is no tag; or, in the last word, the tag
of an operation that needs an operand; or no word at all. The address is where the machine
was when it fetched, or tried to, for the last time. Only the last three come up in
fetching, a missing operand among them, and all others in executing what was fetched. -/
theorem fault_attested {σ : Type} {observe : σ → Event → σ} {options : Options}
    {program : Program} {s : σ} {outcome : Outcome σ}
    (hrun : RunsTo observe options (load program) s outcome)
    (hfault : outcome.ending = .faulted fault)
    (hlimit : ∀ limit, fault ≠ .stepLimitExceeded limit) :
    fault.Attested program
    ∧ ∃ k mk, (load program).nth? k = some mk ∧ fault.address? = some mk.ip
      ∧ Arises fault mk outcome.machine := by
  obtain ⟨attempted, hcourse, -⟩ := runsTo_iff.mp hrun
  rw [hfault] at hcourse
  obtain ⟨k, mk, hk, harises⟩ := hcourse.arises (stage_ne_counting hlimit)
  obtain ⟨hattested, haddress⟩ := harises.attested
  -- the program is the same all along the run, so it can be asked at the end of it
  have hprogram : mk.program = program := program_of_nth hk
  rw [hprogram] at hattested
  exact ⟨hattested, k, mk, hk, haddress, harises⟩

/-- The operand of the first instruction is the tag of a division, and the program jumps to
it with one value on the stack. -/
theorem fault_attested_operand :
    let program : Program := #[Op.push.tag, Op.div.tag, Op.push.tag, 1, Op.jmp.tag]
    let outcome := (load program).run (fun (s : Unit) _ => s) {} 4 ()
    outcome.ending = .faulted (.stackUnderflow .div 1)
    ∧ Stands program .div 1
    ∧ ∃ k mk, (load program).nth? k = some mk ∧ mk.ip = 1
      ∧ Arises (.stackUnderflow .div 1) mk outcome.machine := by
  intro program outcome
  have hending : outcome.ending = .faulted (.stackUnderflow .div 1) := by decide +kernel
  have hrun : RunsTo (fun (s : Unit) _ => s) {} (load program) () outcome :=
    ⟨by rw [hending]; simp, 4, rfl⟩
  obtain ⟨hstands, k, mk, hk, haddress, harises⟩ := fault_attested hrun hending (by simp)
  exact ⟨hending, hstands, k, mk, hk, (Option.some.inj haddress).symm, harises⟩

end Machine

end StackMachine
