/-
The stages of an assembly, each by what it does to one line or instruction.

Reading is one line at a time already. Emission and resolution are not: the
second pass writes a row of slots for the whole program, and resolution walks
along the slots. `resolve_emit` turns the two into one walk along the
instructions, each of which becomes an operation with its operand word; after
it nothing here or later speaks of slots again, except to say where they stand.
-/
import StackMachine.Assembly.Basic
import StackMachine.Proofs.Arity
import StackMachine.Proofs.Assembly.Tables

set_option autoImplicit false

namespace StackMachine.Assembly

open Source

/-! ## Reading -/

/-- Line number `i + 1` of a source cannot be read. -/
def UnreadableAt (source : String) (i : Nat) (e : Error) : Prop :=
  ∃ raw, (Text.lines source)[i]? = some raw ∧ Line.parse (i + 1) raw = .error e

/-- The lines that a source is read as. -/
structure Reads (source : String) (lines : List Line) : Prop where
  length_eq : lines.length = (Text.lines source).length
  parse_eq : ∀ (i : Nat) (raw : String), (Text.lines source)[i]? = some raw →
    ∃ line, lines[i]? = some line ∧ Line.parse (i + 1) raw = .ok line

theorem getElem?_numbered (source : String) (i : Nat) :
    ((Text.lines source).zipIdx 1)[i]? = (Text.lines source)[i]?.map fun raw => (raw, i + 1) := by
  rw [List.getElem?_zipIdx, Nat.add_comm 1 i]

/-- Reading succeeds exactly if it does on every line. -/
theorem readLines_eq_ok_iff (source : String) (lines : List Line) :
    readLines source = .ok lines ↔ Reads source lines := by
  rw [readLines, mapM_eq_ok_iff, List.length_zipIdx]
  constructor
  · rintro ⟨hlen, hall⟩
    refine ⟨hlen, ?_⟩
    intro i raw hraw
    exact hall i (raw, i + 1) (by rw [getElem?_numbered, hraw, Option.map_some])
  · rintro ⟨hlen, hall⟩
    refine ⟨hlen, ?_⟩
    rintro i ⟨raw, number⟩ hi
    rw [getElem?_numbered] at hi
    obtain ⟨raw', hraw, heq⟩ := Option.map_eq_some_iff.mp hi
    rw [Prod.mk.injEq] at heq
    obtain ⟨rfl, rfl⟩ := heq
    exact hall i raw' hraw

/-- Reading fails with the error of the first line that cannot be read. -/
theorem readLines_eq_error_iff (source : String) (e : Error) :
    readLines source = .error e ↔ First (UnreadableAt source) e := by
  rw [readLines, mapM_eq_error_iff]
  apply first_congr
  intro i e'
  constructor
  · rintro ⟨entry, hentry, hparse⟩
    rw [getElem?_numbered] at hentry
    obtain ⟨raw, hraw, rfl⟩ := Option.map_eq_some_iff.mp hentry
    exact ⟨raw, hraw, hparse⟩
  · rintro ⟨raw, hraw, hparse⟩
    exact ⟨(raw, i + 1), by rw [getElem?_numbered, hraw, Option.map_some], hparse⟩

namespace Reads

variable {source : String} {lines : List Line}

theorem exists_raw (h : Reads source lines) {i : Nat} {line : Line} (hi : lines[i]? = some line) :
    ∃ raw ∈ Text.lines source, Line.parse (i + 1) raw = .ok line := by
  have hlt : i < (Text.lines source).length :=
    h.length_eq ▸ (List.getElem?_eq_some_iff.mp hi).1
  obtain ⟨line', hline, hparse⟩ := h.parse_eq i _ (List.getElem?_eq_getElem hlt)
  rw [hi, Option.some.injEq] at hline
  exact ⟨_, List.getElem_mem hlt, hline ▸ hparse⟩

theorem parse_of_getElem? (h : Reads source lines) {i : Nat} {line : Line}
    (hi : lines[i]? = some line) : ∃ raw, Line.parse (i + 1) raw = .ok line := by
  obtain ⟨raw, -, hparse⟩ := h.exists_raw hi
  exact ⟨raw, hparse⟩

theorem number_eq (h : Reads source lines) {i : Nat} {line : Line} (hi : lines[i]? = some line) :
    line.number = i + 1 := by
  obtain ⟨raw, hparse⟩ := h.parse_of_getElem? hi
  exact (Line.parse_spec hparse).1

/-- Two lines of the same number are one line. -/
theorem numbers_nodup (h : Reads source lines) : (lines.map Line.number).Nodup := by
  -- the numbers are one, two, three and so on, whatever the lines say
  have hnumbers : lines.map Line.number = List.range' 1 lines.length := by
    refine List.ext_getElem? ?_
    intro i
    rw [List.getElem?_map]
    rcases hi : lines[i]? with _ | line
    · have hlen := List.getElem?_eq_none_iff.mp hi
      rw [Option.map_none, List.getElem?_eq_none (by rw [List.length_range']; exact hlen)]
    · have hlt := (List.getElem?_eq_some_iff.mp hi).1
      rw [Option.map_some, h.number_eq hi, List.getElem?_range' hlt, Nat.one_mul, Nat.add_comm]
  rw [hnumbers]
  exact List.nodup_range'

/-- Every instruction of the source has the operand its arity asks for. -/
theorem wellFormed (h : Reads source lines) : ∀ code ∈ codesOf lines, code.WellFormed := by
  intro code hcode
  obtain ⟨line, hline, hmem⟩ := List.mem_flatMap.mp hcode
  obtain ⟨i, hi⟩ := List.mem_iff_getElem?.mp hline
  obtain ⟨raw, hparse⟩ := h.parse_of_getElem? hi
  exact (Line.parse_spec hparse).2 code hmem

end Reads

/-! ## Emission and resolution -/

/-- The operand word of instruction number `index`. -/
def operandWord (tables : Tables) (index : Nat) : Option Operand → Except Problem (Option Word)
  | none => .ok none
  | some (.literal w) => .ok (some w)
  | some (.reference target) => (tables.resolve index target).map some

/-- An instruction, given with its line and its number, after resolution. -/
def bareOf (tables : Tables) (entry : (Nat × Code) × Nat) : Except Error Bare :=
  ((operandWord tables entry.2 entry.1.2.operand).mapError fun p => p.at entry.1.1).map
    fun operand => ⟨entry.1.2.op, operand⟩

/-- The slots of one instruction resolve to its words. -/
theorem mapM_resolve_ofCode (tables : Tables) (entry : (Nat × Code) × Nat) :
    (Slot.ofCode entry.1.1 entry.2 entry.1.2).mapM (Slot.resolve tables)
      = (bareOf tables entry).map Bare.words := by
  obtain ⟨⟨line, op, operand⟩, index⟩ := entry
  rcases operand with _ | ⟨w⟩ | ⟨target⟩
  · rfl
  · rfl
  · simp only [Slot.ofCode, List.mapM_cons, List.mapM_nil, Slot.resolve, bareOf, operandWord]
    rcases tables.resolve index target with p | w
    · rfl
    · rfl

/-- Resolving the slots of a program is resolving its instructions. -/
theorem resolve_emit (tables : Tables) (lines : List Line) :
    resolve tables (emit lines)
      = ((numberedCodes lines).zipIdx.mapM (bareOf tables)).map Bare.encode :=
  mapM_flatMap (mapM_resolve_ofCode tables) _

theorem map_snd_numberedCodes (lines : List Line) :
    (numberedCodes lines).map Prod.snd = codesOf lines := by
  simp [numberedCodes, codesOf, List.map_flatMap, Function.comp_def]

theorem length_numberedCodes (lines : List Line) :
    (numberedCodes lines).length = (codesOf lines).length := by
  rw [← map_snd_numberedCodes, List.length_map]

/-- Each instruction has a line that it stands on. -/
theorem getElem?_codesOf_eq_some_iff {lines : List Line} {k : Nat} {code : Code} :
    (codesOf lines)[k]? = some code
      ↔ ∃ number, (numberedCodes lines)[k]? = some (number, code) := by
  rw [← map_snd_numberedCodes, List.getElem?_map, Option.map_eq_some_iff]
  constructor
  · rintro ⟨⟨number, code'⟩, hk, rfl⟩
    exact ⟨number, hk⟩
  · rintro ⟨number, hk⟩
    exact ⟨(number, code), hk, rfl⟩

/-- The line number of an instruction is the number of a line. -/
theorem exists_line_of_numberedCodes {lines : List Line} {k number : Nat} {code : Code}
    (hk : (numberedCodes lines)[k]? = some (number, code)) :
    ∃ line ∈ lines, line.number = number ∧ code ∈ line.codes := by
  have hmem := List.mem_of_getElem? hk
  rw [numberedCodes, List.mem_flatMap] at hmem
  obtain ⟨line, hline, hentry⟩ := hmem
  obtain ⟨code', hcode, heq⟩ := List.mem_map.mp hentry
  rw [Prod.mk.injEq] at heq
  exact ⟨line, hline, heq.1, heq.2 ▸ hcode⟩

/-- `bares` are the instructions `codes` with their operands resolved. -/
structure Resolves (tables : Tables) (codes : List Code) (bares : List Bare) : Prop where
  length_eq : bares.length = codes.length
  bare_eq : ∀ (k : Nat) (code : Code), codes[k]? = some code →
    ∃ operand, bares[k]? = some ⟨code.op, operand⟩
      ∧ operandWord tables k code.operand = .ok operand

/-- Resolution succeeds exactly if it does on every instruction. -/
theorem resolve_emit_eq_ok_iff (tables : Tables) (lines : List Line) (words : List Word) :
    resolve tables (emit lines) = .ok words
      ↔ ∃ bares, Resolves tables (codesOf lines) bares ∧ Bare.encode bares = words := by
  have hbare : ∀ (number index : Nat) (code : Code) (bare : Bare),
      bareOf tables ((number, code), index) = .ok bare
        ↔ ∃ operand, bare = ⟨code.op, operand⟩
          ∧ operandWord tables index code.operand = .ok operand := by
    intro number index code bare
    unfold bareOf
    rcases operandWord tables index code.operand with problem | operand
    · simp [Except.mapError, Except.map]
    · simp [Except.mapError, Except.map, eq_comm]
  -- the numbers and lines that instructions carry matter for errors only
  rw [resolve_emit, map_eq_ok_iff]
  refine exists_congr fun bares => and_congr_left fun _ => ?_
  rw [mapM_eq_ok_iff, List.length_zipIdx, length_numberedCodes]
  constructor
  · rintro ⟨hlen, hall⟩
    refine ⟨hlen, ?_⟩
    intro k code hk
    obtain ⟨number, hnumber⟩ := getElem?_codesOf_eq_some_iff.mp hk
    obtain ⟨bare, hget, hof⟩ := hall k ((number, code), k) (by simp [hnumber])
    obtain ⟨operand, rfl, hoperand⟩ := (hbare _ _ _ _).mp hof
    exact ⟨operand, hget, hoperand⟩
  · rintro ⟨hlen, hall⟩
    refine ⟨hlen, ?_⟩
    rintro k ⟨⟨number, code⟩, index⟩ hk
    rw [List.getElem?_zipIdx, Nat.zero_add, Option.map_eq_some_iff] at hk
    obtain ⟨entry, hentry, heq⟩ := hk
    rw [Prod.mk.injEq] at heq
    obtain ⟨rfl, rfl⟩ := heq
    have hcode : (codesOf lines)[k]? = some code :=
      getElem?_codesOf_eq_some_iff.mpr ⟨number, hentry⟩
    obtain ⟨operand, hget, hoperand⟩ := hall k code hcode
    exact ⟨_, hget, (hbare _ _ _ _).mpr ⟨operand, rfl, hoperand⟩⟩

namespace Resolves

variable {tables : Tables} {codes : List Code} {bares : List Bare}

/-- Resolution finds an operand word exactly where there is an operand. -/
theorem isSome_operandWord {index : Nat} {operand : Option Operand} {word : Option Word}
    (h : operandWord tables index operand = .ok word) : word.isSome = operand.isSome := by
  rcases operand with _ | ⟨w⟩ | ⟨target⟩
  · rw [operandWord, Except.ok.injEq] at h
    rw [← h]
    rfl
  · rw [operandWord, Except.ok.injEq] at h
    rw [← h]
    rfl
  · rw [operandWord] at h
    obtain ⟨w, -, rfl⟩ := map_eq_ok_iff.mp h
    rfl

theorem map_op_eq (h : Resolves tables codes bares) :
    bares.map Bare.op = codes.map Code.op := by
  refine List.ext_getElem? ?_
  intro k
  rw [List.getElem?_map, List.getElem?_map]
  rcases hk : codes[k]? with _ | code
  · have hlen := List.getElem?_eq_none_iff.mp hk
    rw [List.getElem?_eq_none (by rw [h.length_eq]; exact hlen)]
    rfl
  · obtain ⟨operand, hget, -⟩ := h.bare_eq k code hk
    rw [hget]
    rfl

/-- Resolution keeps every size, so it moves nothing. -/
theorem totalSize_take (h : Resolves tables codes bares) (k : Nat) :
    Bare.totalSize (bares.take k) = Code.totalSize (codes.take k) := by
  -- a size is a matter of the operations alone
  have hsizes : ∀ (ops : List Op) (bs : List Bare), bs.map Bare.op = ops →
      Bare.totalSize bs = (ops.map Op.size).sum := by
    rintro ops bs rfl
    rw [Bare.totalSize, List.map_map]
    rfl
  rw [hsizes ((codes.take k).map Code.op) (bares.take k)
    (by rw [List.map_take, h.map_op_eq, List.map_take]), Code.totalSize_eq_sum, List.map_map]
  rfl

theorem totalSize_eq (h : Resolves tables codes bares) :
    Bare.totalSize bares = Code.totalSize codes := by
  have hall := h.totalSize_take codes.length
  rwa [List.take_length, ← h.length_eq, List.take_length] at hall

/-- Resolved instructions have the operand words their arities ask for. -/
theorem wellFormed (h : Resolves tables codes bares) (hcodes : ∀ code ∈ codes, code.WellFormed) :
    ∀ bare ∈ bares, bare.WellFormed := by
  intro bare hbare
  obtain ⟨k, hk⟩ := List.mem_iff_getElem?.mp hbare
  have hlt : k < codes.length := h.length_eq ▸ (List.getElem?_eq_some_iff.mp hk).1
  obtain ⟨operand, hget, hoperand⟩ := h.bare_eq k _ (List.getElem?_eq_getElem hlt)
  rw [hk, Option.some.injEq] at hget
  have hcode := hcodes _ (List.getElem_mem hlt)
  rw [hget, Bare.WellFormed, isSome_operandWord hoperand]
  exact hcode

end Resolves

/-! ## The whole assembly -/

/-- What is behind an assembled source: lines that were read, tables that
describe them, and instructions whose operands the tables resolve. -/
structure Assembled (source : String) (assembly : Assembly) (bares : List Bare) : Prop where
  reads : Reads source assembly.lines
  describes : assembly.tables.Describes assembly.lines
  resolves : Resolves assembly.tables (codesOf assembly.lines) bares
  words_eq : assembly.words = (Bare.encode bares).toArray

/-- An assembly that succeeds went through all stages. -/
theorem exists_assembled {source : String} {assembly : Assembly}
    (h : assemble source = .ok assembly) : ∃ bares, Assembled source assembly bares := by
  obtain ⟨lines, hread, hlines⟩ := bind_eq_ok_iff.mp h
  obtain ⟨tables, htables, hwords⟩ := bind_eq_ok_iff.mp hlines
  obtain ⟨words, hresolve, hassembly⟩ := bind_eq_ok_iff.mp hwords
  obtain rfl : ⟨lines, tables, words.toArray⟩ = assembly := by
    simpa [pure, Except.pure] using hassembly
  obtain ⟨bares, hbares, rfl⟩ := (resolve_emit_eq_ok_iff tables lines words).mp hresolve
  exact ⟨bares, (readLines_eq_ok_iff source lines).mp hread, describes_of_collect htables,
    hbares, rfl⟩

namespace Assembled

variable {source : String} {assembly : Assembly} {bares : List Bare}

theorem bares_wellFormed (h : Assembled source assembly bares) :
    ∀ bare ∈ bares, bare.WellFormed :=
  h.resolves.wellFormed h.reads.wellFormed

/-- The program is as long as the tables say. -/
theorem size_words (h : Assembled source assembly bares) :
    assembly.words.size = assembly.tables.size := by
  rw [h.words_eq, List.size_toArray, Bare.length_encode h.bares_wellFormed,
    h.resolves.totalSize_eq, ← extent_eq_totalSize, h.describes.size_eq]

end Assembled

end StackMachine.Assembly
