/-
Return addresses that are no words.

A call saves the address behind it, and the one address that is no word is the end of a
program of `programCapacity` words. The assembler accepts such a program: all of its
instructions stand at words, and only the end does not. So a call that is the very last
word of a full program cannot save where it should return to.

`unreturnable_iff` says that this is the only way in which an assembled program comes to a
return address out of range, and `exists_unreturnable` that there are sources which do: it
is not kept to images that no assembler made.
-/
import StackMachine.Machine.Hook
import StackMachine.Proofs.Assembly.Recompile
import StackMachine.Proofs.Machine.Course
import StackMachine.Proofs.Machine.Transfer

set_option autoImplicit false

namespace StackMachine

/-- An instruction is decoded from a word that is its tag. -/
theorem getElem?_of_decodeAt {program : Program} {address : Nat} {inst : Instruction}
    (h : decodeAt program address = .ok (some inst)) : program[address]? = some inst.op.tag := by
  have hfirst : program[address]? = (program.toList.drop address)[0]? := by
    rw [List.getElem?_drop, Nat.add_zero, Array.getElem?_toList]
  rcases decodeAt_cases program address with
    ⟨-, hnone⟩ | ⟨bare, rest, -, hwords, hsome⟩ | ⟨failure, -, herror⟩
  · rw [hnone] at h
    simp at h
  · rw [hsome, Except.ok.injEq, Option.some.injEq] at h
    rw [hfirst, hwords, ← h]
    rfl
  · rw [herror] at h
    simp at h

namespace Machine

open Exec

variable {m mk final : Machine} {inst : Instruction} {options : Options}

/-! ## The last call -/

/-- A machine that is about to execute a call, and the address behind it is no word. -/
structure AtLastCall (m : Machine) : Prop where
  call : m.program[m.ip]? = some Op.proc.tag
  last : programCapacity ≤ m.ip + 1
  /-- There is an address to call. -/
  live : m.sp ≠ 0

namespace AtLastCall

theorem fetch (h : AtLastCall m) : m.fetch = .ok ⟨m.ip, .proc, none⟩ := by
  rw [fetch_eq_ok_iff, decodeAt, h.call]
  rfl

/-- The call takes the address to go to and then cannot save the one to return to. -/
theorem step (h : AtLastCall m) :
    m.step ⟨m.ip, .proc, none⟩
      = .error (.returnAddressOutOfRange .proc m.ip (m.ip + 1))
          { m with ip := m.ip + 1, sp := m.sp - 1, fp := m.fp - 1 } := by
  have hret : Word.ofNat? (m.ip + 1) = none := Word.ofNat?_eq_none_iff.mpr h.last
  have hpop : pop ⟨m.ip, .proc, none⟩ { m with ip := m.ip + 1 }
      = .ok _ { m with ip := m.ip + 1, sp := m.sp - 1, fp := m.fp - 1 } :=
    pop_eq_ok_iff.mpr ⟨h.live, rfl, rfl⟩
  have hsave : returnAddress ⟨m.ip, .proc, none⟩
      { m with ip := m.ip + 1, sp := m.sp - 1, fp := m.fp - 1 }
      = .error (.returnAddressOutOfRange .proc m.ip (m.ip + 1))
          { m with ip := m.ip + 1, sp := m.sp - 1, fp := m.fp - 1 } := by
    simp only [returnAddress, hret]
  exact (bind_of_ok hpop _).trans (bind_of_error hsave _)

/-- A program with such a call that is no longer than it may be is just as long. -/
theorem size_eq (h : AtLastCall m) (hfit : m.program.size ≤ programCapacity) :
    m.ip + 1 = programCapacity ∧ m.program.size = programCapacity := by
  have hlt := (Array.getElem?_eq_some_iff.mp h.call).1
  have hlast := h.last
  omega

end AtLastCall

/-- Without an address to go to, a call does not come to save one to return to. -/
theorem step_of_call_empty (hop : inst.op = .proc) (hsp : m.sp = 0) :
    m.step inst = .error (.stackUnderflow inst.op inst.address) { m with ip := inst.next } := by
  obtain ⟨address, op, operand⟩ := inst
  obtain rfl : op = .proc := hop
  have hpop : pop ⟨address, .proc, operand⟩ { m with ip := address + 1 }
      = .error (.stackUnderflow .proc address) { m with ip := address + 1 } := by
    rw [pop, if_pos hsp]
  exact bind_of_error hpop _

/-- A return address is out of range only for the last call. -/
theorem atLastCall_of_step {op : Op} {address ret : Nat} (hfetch : m.fetch = .ok inst)
    (hstep : m.step inst = .error (.returnAddressOutOfRange op address ret) final) :
    AtLastCall m ∧ op = .proc ∧ address = m.ip ∧ ret = m.ip + 1 := by
  have haddress : inst.address = m.ip := address_of_fetch hfetch
  have hblames := blames_of_step_error hstep
  generalize hfault : Fault.returnAddressOutOfRange op address ret = fault at hstep hblames
  cases hblames with
  | ret hop hret =>
    have hnext : inst.next = m.ip + 1 := by
      rw [Instruction.next, haddress, hop]
      rfl
    rw [Fault.returnAddressOutOfRange.injEq, hop, haddress, hnext] at hfault
    refine ⟨⟨?_, ?_, ?_⟩, hfault⟩
    · rw [getElem?_of_decodeAt (fetch_eq_ok_iff.mp hfetch), hop]
    · rwa [Word.ofNat?_eq_none_iff, hnext] at hret
    · intro hsp
      rw [step_of_call_empty hop hsp] at hstep
      simp at hstep
  | _ => simp at hfault

theorem atLastCall_of_course {attempted : Nat} {op : Op} {address ret : Nat}
    (h : Course options m attempted final (.faulted (.returnAddressOutOfRange op address ret))) :
    ∃ k mk, m.nth? k = some mk ∧ options.Allows (k + 1) ∧ AtLastCall mk
      ∧ op = .proc ∧ address = mk.ip ∧ ret = mk.ip + 1 := by
  rcases h with ⟨-, -, hfetch⟩ | _ | @⟨k, mk, _, inst, fault, hk, hallowed, hfetch, hstep⟩ | _
  · -- fetching raises other faults
    have hstage := stage_of_fetch_error hfetch
    simp [Fault.stage] at hstage
  · exact ⟨k, mk, hk, hallowed, atLastCall_of_step hfetch hstep⟩

theorem course_of_atLastCall {k : Nat} (hk : m.nth? k = some mk) (hallowed : options.Allows (k + 1))
    (h : AtLastCall mk) :
    ∃ final, Course options m (k + 1) final
      (.faulted (.returnAddressOutOfRange .proc mk.ip (mk.ip + 1))) :=
  ⟨_, .faults hk hallowed h.fetch h.step⟩

/-! ## The way to a call -/

theorem next?_of_push {w : Word}
    (hfetch : decodeAt m.program m.ip = .ok (some ⟨m.ip, .push, some w⟩))
    (hsp : m.sp < stackCapacity) :
    ∃ m', m.next? = some m' ∧ m'.program = m.program ∧ m'.ip = m.ip + 2 ∧ m'.sp = m.sp + 1
      ∧ m'.peek 0 = w := by
  have hpush : push ⟨m.ip, .push, some w⟩ w { m with ip := m.ip + 2 } = .ok () _ :=
    push_eq_ok_iff.mpr ⟨hsp, rfl⟩
  refine ⟨_, next?_eq_some_iff.mpr ⟨_, .next, fetch_eq_ok_iff.mpr hfetch, bind_of_ok hpush _,
    by simp⟩, rfl, rfl, rfl, ?_⟩
  show ((m.stack.setIfInBounds m.sp w)[m.sp]?).getD 0 = w
  simp [hsp]

theorem next?_of_jmp (hfetch : decodeAt m.program m.ip = .ok (some ⟨m.ip, .jmp, none⟩))
    (hsp : m.sp ≠ 0) :
    ∃ m', m.next? = some m' ∧ m'.ip = (m.peek 0).toNat ∧ m'.sp = m.sp - 1 := by
  have hpop : pop ⟨m.ip, .jmp, none⟩ { m with ip := m.ip + 1 } = .ok (m.peek 0) _ :=
    pop_eq_ok_iff.mpr ⟨hsp, rfl, rfl⟩
  exact ⟨_, next?_eq_some_iff.mpr ⟨_, .next, fetch_eq_ok_iff.mpr hfetch, bind_of_ok hpop _,
    by simp⟩, rfl, rfl⟩

/-- Two pushes and a jump lead to the address that was pushed last. -/
theorem nth_of_push_push_jmp {program : Program} {a b : Word}
    (hfirst : decodeAt program 0 = .ok (some ⟨0, .push, some a⟩))
    (hsecond : decodeAt program 2 = .ok (some ⟨2, .push, some b⟩))
    (hthird : decodeAt program 4 = .ok (some ⟨4, .jmp, none⟩)) :
    ∃ m, (load program).nth? 3 = some m ∧ m.ip = b.toNat ∧ m.sp = 1 := by
  have hempty : (load program).sp < stackCapacity := Nat.zero_lt_succ 255
  obtain ⟨m₁, hnext₁, hprogram₁, hip₁, hsp₁, -⟩ := next?_of_push hfirst hempty
  have hfetch₁ : decodeAt m₁.program m₁.ip = .ok (some ⟨m₁.ip, .push, some b⟩) := by
    rw [hprogram₁, hip₁]
    exact hsecond
  have hroom : m₁.sp < stackCapacity := by
    rw [hsp₁]
    exact Nat.succ_lt_succ (Nat.zero_lt_succ 254)
  obtain ⟨m₂, hnext₂, hprogram₂, hip₂, hsp₂, htop⟩ := next?_of_push hfetch₁ hroom
  have hfetch₂ : decodeAt m₂.program m₂.ip = .ok (some ⟨m₂.ip, .jmp, none⟩) := by
    rw [hprogram₂, hprogram₁, hip₂, hip₁]
    exact hthird
  obtain ⟨m₃, hnext₃, hip₃, hsp₃⟩ := next?_of_jmp hfetch₂ (by omega)
  refine ⟨m₃, ?_, by rw [hip₃, htop], by rw [hsp₃, hsp₂, hsp₁]; rfl⟩
  exact nth?_succ_of_next (nth?_succ_of_next (nth?_succ_of_next rfl hnext₁) hnext₂) hnext₃

end Machine

namespace Assembly

open Machine

/-! ## A source with such a call -/

/-- A jump over `n` idle instructions to address `n + 5`. -/
def approach (n : Nat) : List Bare :=
  [⟨.push, some 0⟩, ⟨.push, some (UInt16.ofNat (n + 5))⟩, ⟨.jmp, none⟩]
    ++ List.replicate n ⟨.nop, none⟩

/-- A jump over `n` idle instructions to a call. -/
def farCall (n : Nat) : List Bare :=
  approach n ++ [⟨.proc, none⟩]

theorem totalSize_approach (n : Nat) : Bare.totalSize (approach n) = n + 5 := by
  rw [approach, Bare.totalSize, List.map_append, List.sum_append, List.map_replicate,
    List.sum_replicate_nat]
  simp only [List.map_cons, List.map_nil, List.sum_cons, List.sum_nil, Op.size, Op.arity]
  omega

theorem totalSize_farCall (n : Nat) : Bare.totalSize (farCall n) = n + 6 := by
  rw [farCall, Bare.totalSize, List.map_append, List.sum_append, ← Bare.totalSize,
    totalSize_approach]
  rfl

theorem wellFormed_farCall (n : Nat) : ∀ bare ∈ farCall n, bare.WellFormed := by
  intro bare hbare
  simp only [farCall, approach, List.mem_append, List.mem_cons, List.not_mem_nil, or_false,
    List.mem_replicate] at hbare
  rcases hbare with ((rfl | rfl | rfl) | ⟨-, rfl⟩) | rfl <;> simp [Bare.WellFormed, Op.arity]

/-- The text of a far call is assembled to it, as long as it fits. -/
theorem compile_farCall {n : Nat} (hfit : n + 6 ≤ programCapacity) :
    compile (disassemble (Bare.encode (farCall n)).toArray).source
      = .ok (Bare.encode (farCall n)).toArray := by
  have hmap := Bare.map_bare_place 0 (farCall n)
  have hlines : Text.lines (disassemble (Bare.encode (farCall n)).toArray).source
      = (Bare.place 0 (farCall n)).map Instruction.source := by
    rw [disassemble_encode (wellFormed_farCall n), Disassembly.source, Disassembly.lines]
    apply Text.lines_join
    intro line hline
    obtain ⟨inst, -, rfl⟩ := List.mem_map.mp hline
    exact isLine_source inst
  have hcompile := compile_of_lines hlines ?_ ?_
  · rwa [hmap] at hcompile
  · intro inst hinst
    apply wellFormed_farCall n
    rw [← hmap]
    exact List.mem_map_of_mem hinst
  · rw [hmap, totalSize_farCall]
    exact hfit

/-- A far call comes to the call in three steps, with an address to go to. -/
theorem nth_farCall {n : Nat} (hfit : n + 6 ≤ programCapacity) :
    let program : Program := (Bare.encode (farCall n)).toArray
    program.size = n + 6 ∧ program[n + 5]? = some Op.proc.tag
      ∧ ∃ m, (load program).nth? 3 = some m ∧ m.ip = n + 5 ∧ m.sp = 1 := by
  intro program
  have hdecode : ∀ {k : Nat} {bare : Bare}, (farCall n)[k]? = some bare →
      decodeAt program (Bare.totalSize ((farCall n).take k))
        = .ok (some ⟨Bare.totalSize ((farCall n).take k), bare.op, bare.operand⟩) :=
    decodeAt_encode (wellFormed_farCall n)
  refine ⟨?_, ?_, ?_⟩
  · rw [List.size_toArray, Bare.length_encode (wellFormed_farCall n), totalSize_farCall]
  · have hcall : (farCall n)[(approach n).length]? = some ⟨.proc, none⟩ :=
      List.getElem?_concat_length
    have hlast := getElem?_of_decodeAt (hdecode hcall)
    rwa [farCall, List.take_left, totalSize_approach] at hlast
  · obtain ⟨m, hm, hip, hsp⟩ := nth_of_push_push_jmp (hdecode (k := 0) rfl) (hdecode (k := 1) rfl)
      (hdecode (k := 2) rfl)
    refine ⟨m, hm, ?_, hsp⟩
    have hword : n + 5 < UInt16.size := by
      rw [programCapacity] at hfit
      show n + 5 < 65536
      omega
    rw [hip]
    exact UInt16.toNat_ofNat_of_lt' hword

/-- If the call is the last word of a full program, a run ends with it. -/
theorem runs_farCall {n : Nat} (hfull : n + 6 = programCapacity) {σ : Type}
    (observe : σ → Event → σ) (s : σ) :
    ∃ outcome, RunsTo observe {} (load (Bare.encode (farCall n)).toArray) s outcome
      ∧ outcome.ending = .faulted (.returnAddressOutOfRange .proc (n + 5) programCapacity) := by
  obtain ⟨-, hcall, m, hm, hip, hsp⟩ := nth_farCall (Nat.le_of_eq hfull)
  have hlast : AtLastCall m := by
    refine ⟨?_, ?_, by omega⟩
    · rw [program_of_nth hm, hip]
      exact hcall
    · rw [hip]
      exact Nat.le_of_eq hfull.symm
  have hunlimited : Options.Allows {} (3 + 1) := by
    intro limit hlimit
    simp at hlimit
  obtain ⟨final, hcourse⟩ := course_of_atLastCall hm hunlimited hlast
  rw [hip, hfull] at hcourse
  have hrun := hcourse.run_eq (Nat.lt_succ_self (3 + 1)) observe s
  exact ⟨_, ⟨hcourse.ending_ne, _, hrun⟩, rfl⟩

/-- A full program whose last word is a call, made by the assembler: a run of it comes to the
call and ends there. -/
theorem exists_unreturnable :
    let program : Program := (Bare.encode (farCall 65530)).toArray
    compile (disassemble program).source = .ok program
      ∧ ∃ outcome, RunsTo Record.observe {} (load program) {} outcome
        ∧ outcome.ending = .faulted (.returnAddressOutOfRange .proc 65535 65536) := by
  intro program
  have hfull : 65530 + 6 = programCapacity := rfl
  exact ⟨compile_farCall (Nat.le_of_eq hfull), runs_farCall hfull Record.observe {}⟩

/-! ## Assembled programs -/

theorem size_of_compile {source : String} {program : Program} (h : compile source = .ok program) :
    program.size ≤ programCapacity := by
  obtain ⟨assembly, hassembly, rfl⟩ := map_eq_ok_iff.mp h
  obtain ⟨bares, hbares⟩ := exists_assembled hassembly
  rw [hbares.size_words]
  exact hbares.describes.size_le

/-- **Return addresses out of range.** A run of an assembled program ends with a return
address out of range exactly if the program is as long as a program can be, its last word is
a call, and the run comes to it with an address to call and with a step left for it. The
fault names that call, at the last address of all, and the end of the program. -/
theorem unreturnable_iff {source : String} {program : Program} (h : compile source = .ok program)
    {σ : Type} {observe : σ → Event → σ} {options : Options} {s : σ} {outcome : Outcome σ}
    (hrun : RunsTo observe options (load program) s outcome) (op : Op) (address ret : Nat) :
    outcome.ending = .faulted (.returnAddressOutOfRange op address ret)
      ↔ op = .proc ∧ ret = programCapacity ∧ address + 1 = programCapacity
        ∧ program.size = programCapacity ∧ program[address]? = some Op.proc.tag
        ∧ ∃ (k : Nat) (m : Machine), (load program).nth? k = some m ∧ options.Allows (k + 1)
          ∧ m.ip = address ∧ m.sp ≠ 0 := by
  obtain ⟨attempted, hcourse, -⟩ := runsTo_iff.mp hrun
  constructor
  · intro hending
    rw [hending] at hcourse
    obtain ⟨k, m, hk, hallowed, hlast, rfl, rfl, rfl⟩ := atLastCall_of_course hcourse
    have hprogram : m.program = program := program_of_nth hk
    obtain ⟨hip, hsize⟩ := hlast.size_eq (by rw [hprogram]; exact size_of_compile h)
    exact ⟨rfl, hip, hip, hprogram ▸ hsize, hprogram ▸ hlast.call, k, m, hk, hallowed, rfl,
      hlast.live⟩
  · rintro ⟨rfl, rfl, hlast, -, hcall, k, m, hk, hallowed, rfl, hsp⟩
    have hprogram : m.program = program := program_of_nth hk
    have hm : AtLastCall m := ⟨by rw [hprogram]; exact hcall, Nat.le_of_eq hlast.symm, hsp⟩
    obtain ⟨final, hfault⟩ := course_of_atLastCall hk hallowed hm
    rw [hlast] at hfault
    exact (hcourse.unique hfault).2.2

/-- Four steps are enough for the call to be reached and to fail. -/
theorem unreturnable_iff_sample :
    let program : Program := (Bare.encode (farCall 65530)).toArray
    let outcome := (load program).run Record.observe { tmax := some 4 } 5 {}
    compile (disassemble program).source = .ok program
      ∧ outcome.ending = .faulted (.returnAddressOutOfRange .proc 65535 65536) := by
  intro program outcome
  have hfit : 65530 + 6 ≤ programCapacity := Nat.le_refl 65536
  have hcompile : compile (disassemble program).source = .ok program := compile_farCall hfit
  have hruns : RunsTo Record.observe { tmax := some 4 } (load program) {} outcome :=
    runsTo_run (rfl : ({ tmax := some 4 } : Options).tmax = some 4)
  obtain ⟨hsize, hcall, m, hm, hip, hsp⟩ := nth_farCall hfit
  refine ⟨hcompile, (unreturnable_iff hcompile hruns .proc 65535 65536).mpr ?_⟩
  exact ⟨rfl, rfl, rfl, hsize, hcall, 3, m, hm, Options.allows_limit rfl, hip, by omega⟩

end Assembly

end StackMachine
