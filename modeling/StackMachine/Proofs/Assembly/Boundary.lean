/-
Assembled programs stay on instruction boundaries.

Nothing in an encoded program says where an instruction starts, and where a program
jumps to is ordinary data. What can be promised is an invariant: a machine that stands on
a boundary decodes an instruction that was emitted there, moves on behind it to the next
boundary, and leaves the boundaries only by a transfer of control that goes somewhere
else. So as long as all transfers go to boundaries, no word is ever read as a tag that was
not emitted as one, and the only failure to fetch is the one at the very end.

The addresses that the assembler itself hands out are boundaries too: what references
resolve to, and what a call saves.
-/
import StackMachine.Proofs.Assembly.Reference
import StackMachine.Proofs.Machine.Course
import StackMachine.Proofs.Machine.Transfer

set_option autoImplicit false

namespace StackMachine

/-- All transfers of control in the first `n` steps of a machine go to certain
addresses. -/
def Machine.TransfersWithin (within : Nat → Prop) (n : Nat) (m : Machine) : Prop :=
  ∀ i, i < n → ∀ target, (m.nth? i).bind transfer? = some target → within target

instance (within : Nat → Prop) [DecidablePred within] (n : Nat) (m : Machine) :
    Decidable (m.TransfersWithin within n) :=
  inferInstanceAs (Decidable (∀ i, i < n → ∀ target ∈ (m.nth? i).bind Machine.transfer?,
    within target))

namespace Assembly

open Source Machine

/-- The addresses at which emitted instructions start, and the end of the program. -/
def Boundary (assembly : Assembly) (address : Nat) : Prop :=
  (∃ k, k < (codesOf assembly.lines).length
      ∧ address = Code.totalSize ((codesOf assembly.lines).take k))
    ∨ address = assembly.words.size

instance (assembly : Assembly) (address : Nat) : Decidable (assembly.Boundary address) :=
  inferInstanceAs (Decidable (_ ∨ _))

/-! ## Boundaries of a program -/

section Boundaries

variable {source : String} {assembly : Assembly} {bares : List Bare}

theorem Assembled.size_eq (h : Assembled source assembly bares) :
    assembly.words.size = Code.totalSize (codesOf assembly.lines) := by
  rw [h.size_words, h.describes.size_eq, extent_eq_totalSize]

/-- A boundary is what the first `k` instructions take up, for some `k`. -/
theorem Assembled.boundary_of_take (h : Assembled source assembly bares) (k : Nat) :
    assembly.Boundary (Code.totalSize ((codesOf assembly.lines).take k)) := by
  rcases Nat.lt_or_ge k (codesOf assembly.lines).length with hlt | hge
  · exact .inl ⟨k, hlt, rfl⟩
  · right
    rw [List.take_of_length_le hge, h.size_eq]

/-- Where an instruction was emitted it is decoded, with its operand resolved. -/
theorem Assembled.decodeAt_code (h : Assembled source assembly bares) {k : Nat} {code : Code}
    (hk : (codesOf assembly.lines)[k]? = some code) :
    ∃ operand, operandWord assembly.tables k code.operand = .ok operand
      ∧ decodeAt assembly.words (Code.totalSize ((codesOf assembly.lines).take k))
        = .ok (some ⟨Code.totalSize ((codesOf assembly.lines).take k), code.op, operand⟩) := by
  obtain ⟨operand, hbare, hoperand⟩ := h.resolves.bare_eq k code hk
  refine ⟨operand, hoperand, ?_⟩
  rw [h.words_eq, ← h.resolves.totalSize_take, decodeAt_encode h.bares_wellFormed hbare]

/-- An instruction that is decoded at a boundary was emitted there, and behind it is a
boundary again. -/
theorem Assembled.decodeAt_eq_some (h : Assembled source assembly bares) {address : Nat}
    (hboundary : assembly.Boundary address) {inst : Instruction}
    (hdecode : decodeAt assembly.words address = .ok (some inst)) :
    (∃ k code, (codesOf assembly.lines)[k]? = some code ∧ inst.op = code.op
        ∧ inst.address = Code.totalSize ((codesOf assembly.lines).take k))
      ∧ assembly.Boundary inst.next := by
  rcases hboundary with ⟨k, hlt, rfl⟩ | rfl
  · have hk : (codesOf assembly.lines)[k]? = some (codesOf assembly.lines)[k] :=
      List.getElem?_eq_getElem hlt
    obtain ⟨operand, -, hcode⟩ := h.decodeAt_code hk
    rw [hcode, Except.ok.injEq, Option.some.injEq] at hdecode
    subst hdecode
    refine ⟨⟨k, _, hk, rfl, rfl⟩, ?_⟩
    show assembly.Boundary (_ + _)
    rw [← Code.totalSize_take_succ hk]
    exact h.boundary_of_take (k + 1)
  · rw [decodeAt_size] at hdecode
    simp at hdecode

/-- At a boundary there is an instruction, or it is the end. -/
theorem Assembled.decodeAt_boundary (h : Assembled source assembly bares) {address : Nat}
    (hboundary : assembly.Boundary address) :
    (∃ inst, decodeAt assembly.words address = .ok (some inst))
      ∨ address = assembly.words.size ∧ decodeAt assembly.words address = .ok none := by
  rcases hboundary with ⟨k, hlt, rfl⟩ | rfl
  · left
    obtain ⟨operand, -, hcode⟩ := h.decodeAt_code (List.getElem?_eq_getElem hlt)
    exact ⟨_, hcode⟩
  · exact .inr ⟨rfl, decodeAt_size assembly.words⟩

/-- What a reference resolves to is a boundary. -/
theorem Assembled.boundary_of_reference (h : Assembled source assembly bares) {k : Nat}
    {code : Code} {target : Reference} (hk : (codesOf assembly.lines)[k]? = some code)
    (htarget : code.operand = some (.reference target)) :
    ∃ w : Word, assembly.words[Code.totalSize ((codesOf assembly.lines).take k) + 1]? = some w
      ∧ assembly.Boundary w.toNat := by
  obtain ⟨w, hw, hdenotes⟩ := h.word_eq hk htarget
  refine ⟨w, hw, ?_⟩
  rcases hdenotes.boundary with ⟨j, hj, hvalue⟩ | ⟨-, hvalue⟩
  · exact .inl ⟨j, hj, hvalue⟩
  · right
    rw [hvalue, h.size_eq, extent_eq_totalSize]

end Boundaries

/-! ## Machines on a boundary -/

/-- A machine that runs an assembled program and stands on one of its boundaries. -/
structure OnBoundary (assembly : Assembly) (m : Machine) : Prop where
  program : m.program = assembly.words
  ip : assembly.Boundary m.ip

namespace OnBoundary

variable {source : String} {assembly : Assembly} {bares : List Bare} {m m' : Machine}
  {inst : Instruction}

/-- Where a program starts is a boundary. -/
theorem start (h : Assembled source assembly bares) : OnBoundary assembly (load assembly.words) where
  program := rfl
  ip := h.boundary_of_take 0

/-- The only failure to fetch on a boundary is that the program is over. -/
theorem fetch_error (h : Assembled source assembly bares) (hm : OnBoundary assembly m)
    {fault : Fault} (hfetch : m.fetch = .error fault) :
    fault = .programEnded assembly.words.size := by
  unfold fetch at hfetch
  rw [hm.program] at hfetch
  rcases h.decodeAt_boundary hm.ip with ⟨inst, hdecode⟩ | ⟨hip, hdecode⟩
  · rw [hdecode] at hfetch
    simp at hfetch
  · rw [hdecode, hip] at hfetch
    exact (Except.error.inj hfetch).symm

/-- What is fetched on a boundary was emitted, and behind it is a boundary. -/
theorem fetch_ok (h : Assembled source assembly bares) (hm : OnBoundary assembly m)
    (hfetch : m.fetch = .ok inst) :
    (∃ k code, (codesOf assembly.lines)[k]? = some code ∧ inst.op = code.op
        ∧ inst.address = Code.totalSize ((codesOf assembly.lines).take k))
      ∧ assembly.Boundary inst.next := by
  have hdecode := fetch_eq_ok_iff.mp hfetch
  rw [hm.program] at hdecode
  exact h.decodeAt_eq_some hm.ip hdecode

/-- A step that completes stays on the boundaries unless it transfers control elsewhere. -/
theorem step_ok (h : Assembled source assembly bares) (hm : OnBoundary assembly m)
    (hfetch : m.fetch = .ok inst) {flow : Flow} (hstep : m.step inst = .ok flow m')
    (hwithin : ∀ target, m.transfer? = some target → assembly.Boundary target) :
    OnBoundary assembly m' where
  program := (kept_program assembly.words).of_step_ok trivial hstep hm.program
  ip := by
    rw [transfer?_of_step_ok hfetch hstep] at hwithin
    rw [ip_of_step_ok hstep]
    rcases htarget : m.target? inst with _ | target
    · exact (hm.fetch_ok h hfetch).2
    · exact hwithin target htarget

/-- A step that faults stays on the boundaries. -/
theorem step_error (h : Assembled source assembly bares) (hm : OnBoundary assembly m)
    (hfetch : m.fetch = .ok inst) {fault : Fault} (hstep : m.step inst = .error fault m') :
    OnBoundary assembly m' where
  program := (kept_program assembly.words).of_step_error hstep hm.program
  ip := by
    rw [ip_of_step_error hstep]
    exact (hm.fetch_ok h hfetch).2

/-- Any number of steps stay on the boundaries as long as all transfers go to them. -/
theorem nth (h : Assembled source assembly bares) {k : Nat} (hm : OnBoundary assembly m)
    (hk : m.nth? k = some m') (hwithin : m.TransfersWithin assembly.Boundary k) :
    OnBoundary assembly m' := by
  induction k generalizing m' with
  | zero =>
    obtain rfl : m = m' := Option.some.inj hk
    exact hm
  | succ k ih =>
    obtain ⟨mk, hk, hnext⟩ := exists_nth_of_succ hk
    have hmk : OnBoundary assembly mk :=
      ih hk fun i hi => hwithin i (Nat.lt_succ_of_lt hi)
    obtain ⟨inst, flow, hfetch, hstep, -⟩ := next?_eq_some_iff.mp hnext
    refine hmk.step_ok h hfetch hstep fun target htarget => ?_
    exact hwithin k (Nat.lt_succ_self k) target (by rw [hk]; exact htarget)

/-- A run that ends is on a boundary then, if all transfers that it made go to
boundaries. -/
theorem course (h : Assembled source assembly bares) {options : Options} {attempted : Nat}
    {final : Machine} {ending : Ending} (hm : OnBoundary assembly m)
    (hcourse : Course options m attempted final ending)
    (hwithin : ∀ n, options.Allows n → m.TransfersWithin assembly.Boundary n) :
    OnBoundary assembly final
      ∧ ∀ fault, ending = .faulted fault → fault.stage = .fetching →
        fault = .programEnded assembly.words.size := by
  rcases hcourse with ⟨hk, hallowed, hfetch⟩ | ⟨hk, hlimit, hfetch⟩
    | ⟨hk, hallowed, hfetch, hstep⟩ | ⟨hk, hallowed, hfetch, hstep⟩
  · have hfinal := hm.nth h hk (hwithin _ hallowed)
    refine ⟨hfinal, ?_⟩
    intro fault hending _
    obtain rfl := Ending.faulted.inj hending
    exact hfinal.fetch_error h hfetch
  · refine ⟨hm.nth h hk (hwithin _ (Options.allows_limit hlimit)), ?_⟩
    intro fault hending hstage
    obtain rfl := Ending.faulted.inj hending
    simp [Fault.stage] at hstage
  · -- the last step faults where it is executed, and not in fetching
    have hlast := hm.nth h hk (hwithin _ (hallowed.of_le (Nat.le_succ _)))
    refine ⟨hlast.step_error h hfetch hstep, ?_⟩
    intro fault hending hstage
    obtain rfl := Ending.faulted.inj hending
    rw [stage_of_step_error hfetch hstep] at hstage
    simp at hstage
  · have hlast := hm.nth h hk (hwithin _ (hallowed.of_le (Nat.le_succ _)))
    refine ⟨hlast.step_ok h hfetch hstep fun target htarget => ?_, ?_⟩
    · exact hwithin _ hallowed _ (Nat.lt_succ_self _) target (by rw [hk]; exact htarget)
    · intro fault hending
      simp at hending

end OnBoundary

/-! ## Runs of an assembled program -/

/-- **Instruction boundaries.** Run an assembled program from its start. After `k` steps
whose transfers of control all go to boundaries, the machine is on a boundary; it fetches
an instruction that was emitted there, and if it cannot fetch, the program is over and it
stands at its end. An instruction that faults leaves it on a boundary, and a call that
completes has put a boundary on top of the stack. A whole run of such steps ends on a
boundary, never in a word that is no tag or in an operand that is missing. And every
reference of the source resolves to a boundary. -/
theorem runs_on_boundaries {source : String} {assembly : Assembly}
    (h : assemble source = .ok assembly) :
    let codes := codesOf assembly.lines
    let start := load assembly.words
    (∀ (k : Nat) (m : Machine), start.nth? k = some m →
      start.TransfersWithin assembly.Boundary k →
      assembly.Boundary m.ip
        ∧ (∀ fault, m.fetch = .error fault → fault = .programEnded assembly.words.size)
        ∧ ∀ inst, m.fetch = .ok inst →
          (∃ j code, codes[j]? = some code ∧ inst.op = code.op
            ∧ inst.address = Code.totalSize (codes.take j))
          ∧ (∀ fault m', m.step inst = .error fault m' → assembly.Boundary m'.ip)
          ∧ (inst.op = .proc → ∀ flow m', m.step inst = .ok flow m' →
            assembly.Boundary (m'.peek 0).toNat))
    ∧ (∀ {σ : Type} (observe : σ → Event → σ) (options : Options) (s : σ) (outcome : Outcome σ),
      RunsTo observe options start s outcome →
      (∀ n, options.Allows n → start.TransfersWithin assembly.Boundary n) →
      assembly.Boundary outcome.machine.ip
        ∧ (∀ word address, outcome.ending ≠ .faulted (.unknownOpcode word address))
        ∧ (∀ op address, outcome.ending ≠ .faulted (.missingOperand op address))
        ∧ ∀ address, outcome.ending = .faulted (.programEnded address) →
          address = assembly.words.size)
    ∧ ∀ (k : Nat) (code : Code) (target : Reference),
      codes[k]? = some code → code.operand = some (.reference target) →
      ∃ w : Word, assembly.words[Code.totalSize (codes.take k) + 1]? = some w
        ∧ assembly.Boundary w.toNat := by
  obtain ⟨bares, hbares⟩ := exists_assembled h
  intro codes start
  have hstart : OnBoundary assembly start := .start hbares
  refine ⟨?_, ?_, fun k code target hk htarget => hbares.boundary_of_reference hk htarget⟩
  · intro k m hk hwithin
    have hm := hstart.nth hbares hk hwithin
    refine ⟨hm.ip, fun fault hfetch => hm.fetch_error hbares hfetch, ?_⟩
    intro inst hfetch
    obtain ⟨hemitted, hnext⟩ := hm.fetch_ok hbares hfetch
    refine ⟨hemitted, fun fault m' hstep => (hm.step_error hbares hfetch hstep).ip, ?_⟩
    intro hop flow m' hstep
    rw [peek_of_call hop hstep]
    exact hnext
  · intro σ observe options s outcome hrun hwithin
    obtain ⟨attempted, hcourse, -⟩ := runsTo_iff.mp hrun
    obtain ⟨hfinal, hfetching⟩ := hstart.course hbares hcourse hwithin
    refine ⟨hfinal.ip, ?_, ?_, ?_⟩
    · intro word address hending
      simpa using hfetching _ hending rfl
    · intro op address hending
      simpa using hfetching _ hending rfl
    · intro address hending
      simpa using hfetching _ hending rfl

/-- A program that calls and returns: after the return it stands behind the call. -/
theorem runs_on_boundaries_call :
    ∃ assembly, assemble "proc @f\nhalt\nf:\nret" = .ok assembly
      ∧ (load assembly.words).TransfersWithin assembly.Boundary 3
      ∧ ∃ m, (load assembly.words).nth? 3 = some m ∧ m.ip = 3 ∧ assembly.Boundary m.ip := by
  obtain ⟨assembly, h, heval⟩ := eq_ok_of_toOption_map
    (x := assemble "proc @f\nhalt\nf:\nret")
    (f := fun assembly => (decide ((load assembly.words).TransfersWithin assembly.Boundary 3),
      ((load assembly.words).nth? 3).map Machine.ip))
    (b := (true, some 3)) (by decide +kernel)
  rw [Prod.mk.injEq, decide_eq_true_eq, Option.map_eq_some_iff] at heval
  obtain ⟨hwithin, m, hm, hip⟩ := heval
  exact ⟨assembly, h, hwithin, m, hm, hip, ((runs_on_boundaries h).1 3 m hm hwithin).1⟩

end Assembly

end StackMachine
