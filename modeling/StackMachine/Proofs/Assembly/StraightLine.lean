/-
Programs that only go forward.

A source whose instructions do not transfer control, and of which the last one and no
other halts, is executed from top to bottom. After `k` steps the machine stands before
instruction number `k` (`Before.nth`), so it is never without an instruction, and there are
only as many steps as instructions. Nothing else bounds the run: it has no step limit,
and what it executes is data as far as the machine is concerned.

Everything that the assembler puts between instructions is stepped over exactly, because a
machine stands behind an instruction where the tables say that the next one is.
-/
import StackMachine.Proofs.Assembly.Boundary
import StackMachine.Proofs.Machine.Course

set_option autoImplicit false

namespace StackMachine

/-- Whether an operation can transfer control. -/
def Op.isTransfer (op : Op) : Bool :=
  op.takesTarget || op == .ret

theorem Op.transfers_eq_false {op : Op} (h : op.isTransfer = false) (b c : Word) :
    op.transfers b c = false := by
  cases op with
  | jmp | jmpz | jmpnz | jmpe | jmpne | jmpg | jmpge | jmpl | jmple | proc | ret =>
    simp [isTransfer, takesTarget] at h
  | _ => rfl

namespace Assembly

open Source Machine

/-- Instructions that go forward to a halt: none transfers control, and the last one and no
other halts. -/
structure StraightLine (codes : List Code) : Prop where
  forward : ∀ code ∈ codes, code.op.isTransfer = false
  nonempty : codes ≠ []
  halt_iff : ∀ (k : Nat) (code : Code), codes[k]? = some code →
    (code.op = .halt ↔ k + 1 = codes.length)

/-- `inst` is instruction number `k` of the source, with its operand resolved, at the address
that the tables have for it. -/
structure Emits (assembly : Assembly) (k : Nat) (inst : Instruction) : Prop where
  code : ∃ code, (codesOf assembly.lines)[k]? = some code ∧ inst.op = code.op
    ∧ operandWord assembly.tables k code.operand = .ok inst.operand
  address : assembly.tables.instr? k 0 = some inst.address

/-- A machine that is about to execute instruction number `k` of an assembled program. -/
structure Before (assembly : Assembly) (k : Nat) (m : Machine) : Prop where
  program : m.program = assembly.words
  lt : k < (codesOf assembly.lines).length
  ip : m.ip = Code.totalSize ((codesOf assembly.lines).take k)

namespace Before

variable {source : String} {assembly : Assembly} {bares : List Bare} {k : Nat} {m m' : Machine}

theorem start (hstraight : StraightLine (codesOf assembly.lines)) :
    Before assembly 0 (load assembly.words) where
  program := rfl
  lt := List.length_pos_of_ne_nil hstraight.nonempty
  ip := rfl

/-- There is an instruction to fetch, and it is the one that was emitted there. -/
theorem fetch (h : Assembled source assembly bares) (hm : Before assembly k m) :
    ∃ inst, m.fetch = .ok inst ∧ assembly.Emits k inst := by
  have hk := List.getElem?_eq_getElem hm.lt
  obtain ⟨operand, hoperand, hdecode⟩ := h.decodeAt_code hk
  refine ⟨⟨_, _, operand⟩, ?_, ⟨_, hk, rfl, hoperand⟩, h.describes.instr?_zero hm.lt⟩
  rw [fetch_eq_ok_iff, hm.program, hm.ip]
  exact hdecode

/-- What is fetched is what was emitted. -/
theorem emits (h : Assembled source assembly bares) (hm : Before assembly k m)
    {inst : Instruction} (hfetch : m.fetch = .ok inst) : assembly.Emits k inst := by
  obtain ⟨inst', hfetch', hemits⟩ := hm.fetch h
  rw [hfetch, Except.ok.injEq] at hfetch'
  exact hfetch' ▸ hemits

/-- A step leads to the next instruction, and there is a next one. -/
theorem next (h : Assembled source assembly bares)
    (hstraight : StraightLine (codesOf assembly.lines)) (hm : Before assembly k m)
    (hnext : m.next? = some m') : Before assembly (k + 1) m' := by
  obtain ⟨inst, flow, hfetch, hstep, hflow⟩ := next?_eq_some_iff.mp hnext
  obtain ⟨code, hcode, hop, -⟩ := (hm.emits h hfetch).code
  refine ⟨(kept_program assembly.words).of_step_ok trivial hstep hm.program, ?_, ?_⟩
  · -- only the last instruction halts, and this one did not
    have hlast : k + 1 ≠ (codesOf assembly.lines).length := by
      intro hlast
      have hhalt : inst.op = .halt := hop.trans ((hstraight.halt_iff k code hcode).mpr hlast)
      rw [step_of_halt m hhalt] at hstep
      exact hflow (EStateM.Result.ok.inj hstep).1.symm
    have hlt := hm.lt
    omega
  · have htransfer : inst.op.isTransfer = false := by
      rw [hop]
      exact hstraight.forward code (List.mem_of_getElem? hcode)
    have htarget : m.target? inst = none := by
      rw [target?, Op.transfers_eq_false htransfer]
      rfl
    rw [ip_of_step_ok hstep, htarget, Option.getD_none, Instruction.next, address_of_fetch hfetch,
      hm.ip, hop, ← Code.totalSize_take_succ hcode]

/-- Any number of steps lead to as many instructions further on. -/
theorem nth (h : Assembled source assembly bares)
    (hstraight : StraightLine (codesOf assembly.lines))
    (hk : (load assembly.words).nth? k = some m) : Before assembly k m := by
  induction k generalizing m with
  | zero =>
    obtain rfl := Option.some.inj hk
    exact .start hstraight
  | succ k ih =>
    obtain ⟨mk, hk, hnext⟩ := exists_nth_of_succ hk
    exact (ih hk).next h hstraight hnext

end Before

section Runs

variable {source : String} {assembly : Assembly} {bares : List Bare} {options : Options}

/-- A run ends, with the last instruction or before. -/
theorem exists_course_of_straightLine (h : Assembled source assembly bares)
    (hstraight : StraightLine (codesOf assembly.lines)) (options : Options) :
    ∃ attempted final ending, attempted ≤ (codesOf assembly.lines).length
      ∧ Course options (load assembly.words) attempted final ending := by
  rcases course_or_nth options (load assembly.words) (codesOf assembly.lines).length with
    hcourse | ⟨m, hn, -⟩
  · exact hcourse
  · -- behind the last instruction there is none to be about to execute
    exact absurd (Before.nth h hstraight hn).lt (Nat.lt_irrefl _)

/-- Without a limit a run ends in a halt, which is the last instruction, or in the fault of
an instruction. -/
theorem ending_of_straightLine (h : Assembled source assembly bares)
    (hstraight : StraightLine (codesOf assembly.lines)) (hlimit : options.tmax = none)
    {attempted : Nat} {final : Machine} {ending : Ending}
    (hcourse : Course options (load assembly.words) attempted final ending) :
    (attempted = (codesOf assembly.lines).length
        ∧ ending = .halted (final.returned options.shorten))
      ∨ ∃ (k : Nat) (m : Machine) (inst : Instruction) (fault : Fault), attempted = k + 1
        ∧ (load assembly.words).nth? k = some m ∧ m.fetch = .ok inst
        ∧ m.step inst = .error fault final ∧ ending = .faulted fault := by
  rcases hcourse with ⟨hk, -, hfetch⟩ | ⟨-, hsome, -⟩
    | @⟨k, m, _, inst, fault, hk, -, hfetch, hstep⟩ | @⟨k, m, _, inst, hk, -, hfetch, hstep⟩
  · obtain ⟨inst, hinst, -⟩ := (Before.nth h hstraight hk).fetch h
    rw [hinst] at hfetch
    simp at hfetch
  · rw [hlimit] at hsome
    simp at hsome
  · exact .inr ⟨k, m, inst, fault, rfl, hk, hfetch, hstep, rfl⟩
  · obtain ⟨code, hcode, hop, -⟩ := ((Before.nth h hstraight hk).emits h hfetch).code
    have hhalt : code.op = .halt := hop ▸ (step_eq_halt_iff.mp hstep).1
    exact .inl ⟨(hstraight.halt_iff k code hcode).mp hhalt, rfl⟩

/-- Programs are short against the fuel of a run without a limit. -/
theorem length_codesOf_lt_fuel (h : Assembled source assembly bares)
    (hlimit : options.tmax = none) : (codesOf assembly.lines).length < options.fuel := by
  have hle := Code.length_le_totalSize (codesOf assembly.lines)
  have hcapacity := h.describes.size_le
  rw [h.describes.size_eq, extent_eq_totalSize, programCapacity] at hcapacity
  simp only [Options.fuel, hlimit]
  omega

end Runs

/-- **Straight-line programs run in source order.** Run an assembled program without a step
limit, of which no instruction transfers control and the last one and no other halts. The
run ends. It executes no more instructions than the source has, and the `k`-th one it
executes is the `k`-th one of the source, with its operand, at its address in the tables.
The machine that it leaves is the one that these instructions lead to, and the observer has
been told the start and as many steps. Either it halts and has executed all of them, or the
last one that it executed is the first one to fault; that fault is how the run ends, and it
names the address of the instruction. -/
theorem run_of_straightLine {source : String} {assembly : Assembly}
    (h : assemble source = .ok assembly) (hstraight : StraightLine (codesOf assembly.lines))
    {σ : Type} (observe : σ → Event → σ) {options : Options} (hlimit : options.tmax = none)
    (s : σ) :
    let codes := codesOf assembly.lines
    let start := load assembly.words
    let executed := executedFrom options options.fuel 0 start
    let outcome := start.run observe options options.fuel s
    RunsTo observe options start s outcome
      ∧ executed.length ≤ codes.length
      ∧ (∀ (k : Nat) (inst : Instruction), executed[k]? = some inst → assembly.Emits k inst)
      ∧ outcome.machine = start.advance executed
      ∧ outcome.observer
        = (Event.start start :: start.narrate options.debug executed.length 0).foldl observe s
      ∧ ((executed.length = codes.length
          ∧ outcome.ending = .halted (outcome.machine.returned options.shorten))
        ∨ ∃ (k : Nat) (m : Machine) (inst : Instruction) (fault : Fault),
          executed.length = k + 1 ∧ executed[k]? = some inst ∧ start.nth? k = some m
            ∧ m.step inst = .error fault outcome.machine
            ∧ outcome.ending = .faulted fault ∧ fault.address? = some inst.address) := by
  intro codes start executed outcome
  obtain ⟨bares, hbares⟩ := exists_assembled h
  obtain ⟨attempted, final, ending, hle, hcourse⟩ :=
    exists_course_of_straightLine hbares hstraight options
  have hfuel : attempted < options.fuel :=
    Nat.lt_of_le_of_lt hle (length_codesOf_lt_fuel hbares hlimit)
  have hlength : executed.length = attempted := hcourse.length_executedFrom hfuel
  have houtcome : outcome = _ := hcourse.run_eq hfuel observe s
  refine ⟨hcourse.runsTo hfuel, by rw [hlength]; exact hle, ?_,
    machine_run observe options options.fuel start s,
    observer_run observe options options.fuel start s, ?_⟩
  · intro k inst hk
    obtain ⟨m, hm, hfetch⟩ := exists_nth_of_executed hk
    exact (Before.nth hbares hstraight hm).emits hbares hfetch
  · rw [hlength, houtcome]
    rcases ending_of_straightLine hbares hstraight hlimit hcourse with
      hhalted | ⟨k, m, inst, fault, rfl, hk, hfetch, hstep, rfl⟩
    · exact .inl hhalted
    · have hlast := hcourse.getElem?_executedFrom hfuel (Nat.lt_succ_self k) hk hfetch
      exact .inr ⟨k, m, inst, fault, rfl, hlast, hk, hstep, rfl,
        (blames_of_step_error hstep).address?_eq⟩

/-- Data in front, an operand that looks like the halt, and a count that stands for two
instructions: all six are executed, the operand is not. -/
theorem run_of_straightLine_sample :
    ∃ assembly, assemble "db 37\npush 37\nspr 2\nwrite\nhalt" = .ok assembly
      ∧ StraightLine (codesOf assembly.lines)
      ∧ (executedFrom {} ({} : Options).fuel 0 (load assembly.words)).length = 6
      ∧ ∀ inst, (executedFrom {} ({} : Options).fuel 0 (load assembly.words))[5]? = some inst →
        assembly.Emits 5 inst := by
  obtain ⟨assembly, h, hfacts⟩ : ∃ assembly,
      assemble "db 37\npush 37\nspr 2\nwrite\nhalt" = .ok assembly
        ∧ (codesOf assembly.lines, assembly.words)
          = ([⟨.db, some (.literal 37)⟩, ⟨.push, some (.literal 37)⟩, ⟨.spi, none⟩, ⟨.spi, none⟩,
            ⟨.write, none⟩, ⟨.halt, none⟩], #[34, 37, 1, 37, 21, 21, 36, 37]) :=
    eq_ok_of_toOption_map (by decide +kernel)
  rw [Prod.mk.injEq] at hfacts
  obtain ⟨hcodes, hwords⟩ := hfacts
  have hstraight : StraightLine (codesOf assembly.lines) := by
    rw [hcodes]
    refine ⟨by decide, by simp, ?_⟩
    rintro (_ | _ | _ | _ | _ | _ | k) code hk <;> simp at hk <;> subst hk <;> simp
  have hending :
      ((load assembly.words).run (fun (s : Unit) _ => s) {} ({} : Options).fuel ()).ending
        = .halted (37 :: List.replicate 255 0) := by
    rw [hwords]
    decide +kernel
  obtain ⟨-, -, hemits, -, -, hends⟩ := run_of_straightLine h hstraight (fun (s : Unit) _ => s)
    (rfl : ({} : Options).tmax = none) ()
  refine ⟨assembly, h, hstraight, ?_, hemits 5⟩
  rcases hends with ⟨hlength, -⟩ | ⟨k, m, inst, fault, -, -, -, -, hfault, -⟩
  · rw [hlength, hcodes]
    rfl
  · rw [hending] at hfault
    nomatch hfault

end Assembly

end StackMachine
