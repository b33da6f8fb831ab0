/-
Disassembly as source text.

An instruction that was read from a program can be written down again: its mnemonic and,
behind a blank, its operand word in hexadecimal. A program that can be read to its end is
the program of the text written down for it, one instruction a line. The walk over the
program says which instructions it consists of (`exists_bares_of_disassemble`); what is
shown here is that each line is read as the one instruction it was written for
(`parse_source`), that such lines always have tables, and that literals resolve to
themselves whatever the tables.
-/
import StackMachine.Proofs.Assembly.Outcome
import StackMachine.Proofs.Literal
import StackMachine.Proofs.Source.Lexeme
import StackMachine.Proofs.Source.Line
import StackMachine.Proofs.Text.Lines

set_option autoImplicit false

namespace StackMachine

open Source

/-! ## The text of an instruction -/

/-- The instruction as a source line. -/
def Instruction.source (inst : Instruction) : String :=
  match inst.operand with
  | none => inst.op.mnemonic
  | some w => inst.op.mnemonic ++ " " ++ ("0x" ++ Text.hex4 w.toNat)

/-- The instructions as source lines. -/
def Disassembly.lines (walk : Disassembly) : List String :=
  walk.instructions.toList.map Instruction.source

/-- The instructions as source text. -/
def Disassembly.source (walk : Disassembly) : String :=
  String.join (walk.lines.map (· ++ "\n"))

/-- The lexemes of an instruction. -/
def Instruction.spelling (inst : Instruction) : List String :=
  inst.op.mnemonic :: inst.operand.toList.map fun w => "0x" ++ Text.hex4 w.toNat

theorem Instruction.source_eq (inst : Instruction) :
    inst.source = String.intercalate " " inst.spelling := by
  obtain ⟨address, op, _ | w⟩ := inst
  · simp [source, spelling]
  · simp [source, spelling, String.append_assoc]

theorem isWord_mnemonic (op : Op) : IsWord op.mnemonic.toList := by
  -- the table is checked as a whole, which is faster than one operation after the other
  have hall : ∀ op ∈ Op.table.toList, IsWord op.mnemonic.toList := by decide +kernel
  exact hall op op.mem_table

theorem isWord_hex4 (n : Nat) : IsWord ("0x" ++ Text.hex4 n).toList := by
  have hdigit : ∀ d < 16, isPlain (Nat.digitChar d).toUpper = true := by decide
  refine ⟨by simp, ?_⟩
  rw [String.toList_append, List.all_append, Bool.and_eq_true]
  refine ⟨by decide, ?_⟩
  rw [List.all_eq_true]
  intro c hc
  obtain ⟨d, hd, rfl⟩ := Literal.mem_hex4 hc
  exact hdigit d hd

theorem isWord_of_mem_spelling {inst : Instruction} {word : String} (h : word ∈ inst.spelling) :
    IsWord word.toList := by
  rw [Instruction.spelling, List.mem_cons] at h
  rcases h with rfl | h
  · exact isWord_mnemonic inst.op
  · obtain ⟨w, -, rfl⟩ := List.mem_map.mp h
    exact isWord_hex4 w.toNat

theorem isLine_source (inst : Instruction) : Text.IsLine inst.source := by
  have hchars : ∀ c ∈ inst.source.toList, c = ' ' ∨ isPlain c = true := by
    intro c hc
    have hblank : " ".toList = [' '] := rfl
    rw [Instruction.source_eq, String.toList_intercalate, hblank] at hc
    refine isPlain_of_mem_intercalate ?_ hc
    intro word hword
    obtain ⟨s, hs, rfl⟩ := List.mem_map.mp hword
    exact isWord_of_mem_spelling hs
  constructor
  · intro hmem
    rcases hchars _ hmem with hblank | hplain
    · simp at hblank
    · exact absurd hplain (by decide)
  · intro hlast
    rcases hchars _ (List.mem_of_getLast? hlast) with hblank | hplain
    · simp at hblank
    · exact absurd hplain (by decide)

/-! ## Reading the text -/

/-- A mnemonic is classified as its operation. -/
theorem kind?_mnemonic (op : Op) : Token.kind? op.mnemonic = some (.operation op) := by
  have hall : ∀ op ∈ Op.table.toList, Token.kind? op.mnemonic = some (.operation op) := by
    decide +kernel
  exact hall op op.mem_table

/-- A printed word is an operand that is this word. -/
theorem ofLexeme_hex4 (w : Word) :
    Operand.ofLexeme ("0x" ++ Text.hex4 w.toNat) = .ok (.literal w) := by
  have hkind : Token.kind? ("0x" ++ Text.hex4 w.toNat) = some (.number (Int64.ofNat w.toNat)) := by
    rw [Token.kind?, Literal.value?_hex4]
  rw [Operand.ofLexeme, Token.ofLexeme_of_kind hkind]
  show Except.ok (Operand.literal (Literal.toWord (Int64.ofNat w.toNat))) = .ok (.literal w)
  rw [Literal.toWord_ofNat]

namespace Instruction

/-- The instruction without its place. -/
def bare (inst : Instruction) : Bare :=
  ⟨inst.op, inst.operand⟩

/-- The instruction as the assembler has it before resolution. -/
def code (inst : Instruction) : Code :=
  ⟨inst.op, inst.operand.map .literal⟩

/-- The line that the text of the instruction is read as. -/
def line (inst : Instruction) (number : Nat) : Line :=
  ⟨number, inst.source, some (.code [inst.code])⟩

/-- **The text of an instruction is read as this instruction.** -/
theorem parse_source {inst : Instruction} (h : inst.bare.WellFormed) (number : Nat) :
    Line.parse number inst.source = .ok (inst.line number) := by
  have hlexemes : lexemes inst.source = inst.spelling := by
    rw [source_eq, lexemes_intercalate fun word => isWord_of_mem_spelling]
  rw [Line.parse_eq_ok_iff, hlexemes]
  refine ⟨some (.code [inst.code]), ?_, rfl⟩
  obtain ⟨address, op, operand⟩ := inst
  simp only [Bare.WellFormed, bare] at h
  -- the arity tells the reader what the operand tells the writer
  rcases operand with _ | w
  · have harity : op.arity = 0 := by
      have hne : ¬ op.arity = 1 := by simpa using h
      rcases op.arity_eq_zero_or_one with hzero | hone
      · exact hzero
      · exact absurd hone hne
    exact ofLexemes_alone (kind?_mnemonic op) harity
  · have harity : op.arity = 1 := h.mp rfl
    show Statement.ofLexemes [op.mnemonic, "0x" ++ Text.hex4 w.toNat] = _
    rw [ofLexemes_operand (kind?_mnemonic op) harity, ofLexeme_hex4]
    rfl

end Instruction

theorem Bare.map_bare_place (address : Nat) (bares : List Bare) :
    (place address bares).map Instruction.bare = bares := by
  induction bares generalizing address with
  | nil => rfl
  | cons bare bares ih => rw [place, List.map_cons, ih, Instruction.bare]

/-! ## Assembling the lines -/

namespace Assembly

/-- Instructions as source lines, one a line. -/
def written (insts : List Instruction) : List Line :=
  (insts.zipIdx 1).map fun entry => entry.1.line entry.2

variable (insts : List Instruction)

theorem getElem?_written (i : Nat) :
    (written insts)[i]? = insts[i]?.map fun inst => inst.line (i + 1) := by
  rw [written, List.getElem?_map, List.getElem?_zipIdx, Option.map_map, Nat.add_comm 1 i]
  rfl

theorem length_written : (written insts).length = insts.length := by
  rw [written, List.length_map, List.length_zipIdx]

theorem codesOf_written : codesOf (written insts) = insts.map Instruction.code := by
  have hcodes : ∀ entry : Instruction × Nat, (entry.1.line entry.2).codes = [entry.1.code] :=
    fun _ => rfl
  have hfst : (insts.zipIdx 1).map Prod.fst = insts := List.zipIdx_map_fst 1 insts
  rw [written, codesOf, List.flatMap_map]
  simp only [hcodes]
  rw [← List.map_eq_flatMap]
  nth_rewrite 2 [← hfst]
  rw [List.map_map]
  rfl

theorem labelsOf_written : labelsOf (written insts) = [] := by
  have hlabel : ∀ entry : Instruction × Nat, (entry.1.line entry.2).label? = none := fun _ => rfl
  rw [written, labelsOf, List.filterMap_map]
  simp [hlabel]

/-- Written down, instructions are as long as they were. -/
theorem extent_written :
    extent (written insts) = Bare.totalSize (insts.map Instruction.bare) := by
  rw [extent_eq_totalSize, codesOf_written, Code.totalSize_eq_sum, Bare.totalSize, List.map_map,
    List.map_map]
  rfl

variable {insts}

/-- A text whose lines are those of instructions is read as these instructions. -/
theorem reads_written {source : String}
    (hlines : Text.lines source = insts.map Instruction.source)
    (h : ∀ inst ∈ insts, inst.bare.WellFormed) : Reads source (written insts) := by
  refine ⟨by rw [length_written, hlines, List.length_map], ?_⟩
  intro i raw hraw
  rw [hlines, List.getElem?_map, Option.map_eq_some_iff] at hraw
  obtain ⟨inst, hinst, rfl⟩ := hraw
  refine ⟨inst.line (i + 1), ?_, ?_⟩
  · rw [getElem?_written, hinst, Option.map_some]
  · exact Instruction.parse_source (h inst (List.mem_of_getElem? hinst)) _

/-- A literal is its own word, whatever the tables. -/
theorem resolves_code (tables : Tables) (insts : List Instruction) :
    Resolves tables (insts.map Instruction.code) (insts.map Instruction.bare) := by
  refine ⟨by rw [List.length_map, List.length_map], ?_⟩
  intro k code hk
  rw [List.getElem?_map, Option.map_eq_some_iff] at hk
  obtain ⟨inst, hinst, rfl⟩ := hk
  refine ⟨inst.operand, by rw [List.getElem?_map, hinst]; rfl, ?_⟩
  obtain ⟨address, op, _ | w⟩ := inst
  · rfl
  · rfl

/-- A text that has the instructions of a program as its lines is assembled to that
program. -/
theorem compile_of_lines {source : String}
    (hlines : Text.lines source = insts.map Instruction.source)
    (h : ∀ inst ∈ insts, inst.bare.WellFormed)
    (hfit : Bare.totalSize (insts.map Instruction.bare) ≤ programCapacity) :
    compile source = .ok (Bare.encode (insts.map Instruction.bare)).toArray := by
  have hreads : Reads source (written insts) := reads_written hlines h
  have hdistinct : (labelsOf (written insts)).Nodup := by
    rw [labelsOf_written]
    exact List.nodup_nil
  obtain ⟨tables, hcollect⟩ :=
    exists_collect_of_distinct hdistinct (by rw [extent_written]; exact hfit)
  have hassembly : ofLines (written insts) = .ok ⟨written insts, tables,
      (Bare.encode (insts.map Instruction.bare)).toArray⟩ := by
    rw [ofLines_eq_ok_iff, codesOf_written]
    exact ⟨rfl, hcollect, _, resolves_code tables insts, rfl⟩
  rw [compile, assemble_of_reads hreads, hassembly]
  rfl

/-- **Disassembly recompiles.** A program of at most `2^16` words that can be read to its
end is the program of its own disassembly: the text with one instruction a line, and any
other text that has these lines, is accepted by the assembler and gives the program back. -/
theorem compile_disassembly {program : Program} (hfit : program.size ≤ programCapacity)
    (hread : (disassemble program).failure = none) :
    compile (disassemble program).source = .ok program
    ∧ ∀ source, Text.lines source = (disassemble program).lines → compile source = .ok program := by
  obtain ⟨bares, hbares, hprogram, hinsts⟩ := exists_bares_of_disassemble hread
  have hlist : (disassemble program).instructions.toList = Bare.place 0 bares := by rw [hinsts]
  have hmap : (Bare.place 0 bares).map Instruction.bare = bares := Bare.map_bare_place 0 bares
  have hwellFormed : ∀ inst ∈ Bare.place 0 bares, inst.bare.WellFormed := by
    intro inst hinst
    apply hbares
    rw [← hmap]
    exact List.mem_map_of_mem hinst
  have hsize : Bare.totalSize bares ≤ programCapacity := by
    rw [← Bare.length_encode hbares]
    rw [hprogram, List.size_toArray] at hfit
    exact hfit
  have hall : ∀ source, Text.lines source = (disassemble program).lines →
      compile source = .ok program := by
    intro source hlines
    rw [Disassembly.lines, hlist] at hlines
    have hcompile := compile_of_lines hlines hwellFormed (by rw [hmap]; exact hsize)
    rw [hcompile, hmap, ← hprogram]
  -- the text has the lines it was put together from, as none of them could be taken apart
  refine ⟨hall _ (Text.lines_join ?_), hall⟩
  intro line hline
  obtain ⟨inst, -, rfl⟩ := List.mem_map.mp hline
  exact isLine_source inst

/-- A program with operands that look like tags and one that is all ones. -/
theorem compile_disassembly_sample :
    (disassemble #[1, 37, 34, 0xFFFF, 23, 37]).failure = none
    ∧ compile "push 0x0025\ndb 0xFFFF\njmp\nhalt\n" = .ok #[1, 37, 34, 0xFFFF, 23, 37] := by
  let bares : List Bare := [⟨.push, some 37⟩, ⟨.db, some 0xFFFF⟩, ⟨.jmp, none⟩, ⟨.halt, none⟩]
  have hbares : ∀ bare ∈ bares, bare.WellFormed := by simp [bares, Bare.WellFormed, Op.arity]
  have hread : disassemble #[1, 37, 34, 0xFFFF, 23, 37] = ⟨(Bare.place 0 bares).toArray, none⟩ :=
    disassemble_encode hbares
  have hsource : (disassemble #[1, 37, 34, 0xFFFF, 23, 37]).source
      = "push 0x0025\ndb 0xFFFF\njmp\nhalt\n" := by
    rw [hread]
    decide +kernel
  refine ⟨by rw [hread], ?_⟩
  rw [← hsource]
  exact (compile_disassembly (by decide) (by rw [hread])).1

end Assembly

end StackMachine
