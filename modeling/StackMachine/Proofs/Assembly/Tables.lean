/-
The first pass computes the layout.

`Tables.Describes` says what the tables of a list of lines hold, in terms of
the layout and not of the pass. One line more keeps it (`Describes.addLine`),
so the tables of a whole source have it (`describes_of_collect`), and every
later statement about addresses is drawn from its fields. `Misplaced` says,
again without the pass, what is wrong with a line that the pass stops at.
-/
import StackMachine.Proofs.Assembly.Layout
import Mathlib.Data.List.Nodup

set_option autoImplicit false

namespace StackMachine.Assembly

open Source

/-! ## What the tables of a list of lines hold -/

/-- The tables of a list of lines that the first pass accepts. -/
structure Tables.Describes (tables : Tables) (lines : List Line) : Prop where
  size_eq : tables.size = extent lines
  size_le : tables.size ≤ programCapacity
  instrs_eq : tables.instrs.toList = Code.starts 0 (codesOf lines)
  labels_eq : tables.labels.toList = labelEntries lines
  /-- A later line of the same number replaces an earlier one. -/
  lines_eq : ∀ number : Nat, tables.lines[number]? =
    ((lineEntries lines).reverse.find? fun entry => entry.1 == number).map Prod.snd
  /-- No label is defined twice. -/
  distinct : (labelsOf lines).Nodup

/-- What makes the first pass stop at a line that comes after `before`. -/
inductive Misplaced (before : List Line) (line : Line) : Error → Prop where
  /-- An earlier line defines the same label. -/
  | redefined {name : String} : line.label? = some name → name ∈ labelsOf before →
      Misplaced before line ((Problem.redefinedLabel name).at line.number)
  /-- With this line, and not before it, the program is too long. -/
  | tooLong : extent before ≤ programCapacity → programCapacity < extent (before ++ [line]) →
      Misplaced before line ((Problem.addressOutOfBounds programCapacity).at line.number)

/-! ## One line more -/

/-- Adding instructions one by one to tables that are already marked. -/
theorem foldl_addCode (tables : Tables) (codes : List Code) :
    codes.foldl Tables.addCode tables =
      { tables with
        instrs := tables.instrs ++ (Code.starts tables.size codes).toArray
        size := tables.size + Code.totalSize codes } := by
  induction codes generalizing tables with
  | nil => simp [Code.starts]
  | cons code codes ih =>
    rw [List.foldl_cons, ih, Tables.addCode, Code.starts, Code.totalSize_cons, Nat.add_assoc]
    simp

theorem addCodes_eq (tables : Tables) (number : Nat) (codes : List Code) :
    tables.addCodes number codes =
      { tables with
        lines := if codes = [] then tables.lines else tables.lines.insert number tables.size
        instrs := tables.instrs ++ (Code.starts tables.size codes).toArray
        size := tables.size + Code.totalSize codes } := by
  rw [Tables.addCodes, foldl_addCode]
  rcases codes with _ | ⟨code, codes⟩
  · simp
  · simp

/-- A label is bound exactly if a line defines it. -/
theorem label?_isSome_iff {tables : Tables} {lines : List Line} (h : tables.Describes lines)
    (name : String) : (tables.label? name).isSome = true ↔ name ∈ labelsOf lines := by
  rw [Tables.label?, Option.isSome_map, ← Array.find?_toList, h.labels_eq, List.find?_isSome,
    ← map_fst_labelEntries, List.mem_map]
  constructor
  · rintro ⟨entry, hmem, heq⟩
    exact ⟨entry, hmem, by simpa using heq⟩
  · rintro ⟨entry, hmem, heq⟩
    exact ⟨entry, hmem, by simpa using heq⟩

namespace Tables.Describes

variable {tables : Tables} {lines : List Line} {line : Line}

theorem nil : Describes {} [] where
  size_eq := rfl
  size_le := Nat.zero_le _
  instrs_eq := rfl
  labels_eq := rfl
  lines_eq number := by simp [lineEntries, placed]
  distinct := List.nodup_nil

theorem addBlank (h : tables.Describes lines) (hline : line.statement = none) :
    tables.Describes (lines ++ [line]) := by
  have hcodes : line.codes = [] := by simp [Line.codes, hline]
  have hlabel : line.label? = none := by simp [Line.label?, hline]
  have hsize : line.size = 0 := by simp [Line.size, hcodes]
  refine ⟨?_, h.size_le, ?_, ?_, ?_, ?_⟩
  · rw [extent_append, extent_singleton, hsize, h.size_eq, Nat.add_zero]
  · rw [h.instrs_eq, codesOf_append]; simp [codesOf, hcodes]
  · rw [h.labels_eq, labelEntries_append, hlabel]; simp
  · intro number
    rw [h.lines_eq, lineEntries_append, if_pos hcodes, List.append_nil]
  · rw [labelsOf_append]; simpa [labelsOf, hlabel] using h.distinct

/-- A new label is bound to where the next instruction will stand. -/
theorem addLabel (h : tables.Describes lines) {name : String}
    (hline : line.statement = some (.label name)) (hnew : name ∉ labelsOf lines) :
    Describes { tables with labels := tables.labels.push (name, tables.size) }
      (lines ++ [line]) := by
  have hcodes : line.codes = [] := by simp [Line.codes, hline]
  have hlabel : line.label? = some name := Line.label?_eq_some_iff.mpr hline
  have hsize : line.size = 0 := by simp [Line.size, hcodes]
  refine ⟨?_, h.size_le, ?_, ?_, ?_, ?_⟩
  · rw [extent_append, extent_singleton, hsize, Nat.add_zero]; exact h.size_eq
  · rw [codesOf_append]; simpa [codesOf, hcodes] using h.instrs_eq
  · rw [Array.toList_push, h.labels_eq, labelEntries_append, hlabel, h.size_eq]; simp
  · intro number
    rw [lineEntries_append, if_pos hcodes, List.append_nil]
    exact h.lines_eq number
  · rw [labelsOf_append]
    have hone : labelsOf [line] = [name] := by simp [labelsOf, hlabel]
    rw [hone, List.nodup_append]
    refine ⟨h.distinct, List.pairwise_singleton _ name, ?_⟩
    intro earlier hmem name' hname' heq
    rw [List.mem_singleton] at hname'
    exact hnew (hname' ▸ heq ▸ hmem)

/-- The instructions of a line follow those before them. -/
theorem addCodes (h : tables.Describes lines) {codes : List Code}
    (hline : line.statement = some (.code codes))
    (hfit : (tables.addCodes line.number codes).size ≤ programCapacity) :
    (tables.addCodes line.number codes).Describes (lines ++ [line]) := by
  have hcodes : line.codes = codes := Line.codes_of_code hline
  have hlabel : line.label? = none := by simp [Line.label?, hline]
  have hone : codesOf [line] = codes := by simp [codesOf, hcodes]
  rw [addCodes_eq] at hfit ⊢
  refine ⟨?_, hfit, ?_, ?_, ?_, ?_⟩
  · rw [extent_append, extent_singleton, Line.size, hcodes, h.size_eq]
  · rw [codesOf_append, hone, Code.starts_append, ← h.instrs_eq, ← extent_eq_totalSize,
      ← h.size_eq]
    simp
  · rw [labelEntries_append, hlabel, h.labels_eq]; simp
  · intro number
    rw [lineEntries_append, hcodes]
    by_cases hempty : codes = []
    · rw [if_pos hempty, if_pos hempty, List.append_nil]
      exact h.lines_eq number
    · -- the newest entry is the first to be found, as a key inserted again replaces
      -- the one before it
      simp only [if_neg hempty, List.reverse_append, List.reverse_singleton,
        List.singleton_append, List.find?_cons]
      rw [Std.HashMap.getElem?_insert, h.size_eq]
      by_cases hnumber : line.number = number
      · simp [hnumber]
      · have hbeq : (line.number == number) = false := by simpa using hnumber
        simp [hbeq, h.lines_eq]
  · rw [labelsOf_append]; simpa [labelsOf, hlabel] using h.distinct

/-- One line more, if the pass accepts it. -/
theorem addLine (h : tables.Describes lines) {after : Tables}
    (hadd : tables.addLine line = .ok after) : after.Describes (lines ++ [line]) := by
  rw [Tables.addLine] at hadd
  split at hadd
  · rename_i hline
    rw [Except.ok.injEq] at hadd
    exact hadd ▸ h.addBlank hline
  · rename_i name hline
    by_cases hbound : (tables.label? name).isSome = true
    · simp [hbound] at hadd
    · rw [if_neg hbound, Except.ok.injEq] at hadd
      rw [label?_isSome_iff h] at hbound
      exact hadd ▸ h.addLabel hline hbound
  · rename_i codes hline
    by_cases hfit : (tables.addCodes line.number codes).size ≤ programCapacity
    · simp only [hfit, if_true, Except.ok.injEq] at hadd
      exact hadd ▸ h.addCodes hline hfit
    · simp [hfit] at hadd

/-- The pass stops at a line exactly if something is wrong with it there. -/
theorem addLine_eq_error_iff (h : tables.Describes lines) (e : Error) :
    tables.addLine line = .error e ↔ Misplaced lines line e := by
  have hbefore : extent lines ≤ programCapacity := h.size_eq ▸ h.size_le
  have hwith : extent (lines ++ [line]) = tables.size + line.size := by
    rw [extent_append, extent_singleton, h.size_eq]
  -- A line without instructions never makes the program too long.
  have hshort : line.codes = [] → ¬ programCapacity < extent (lines ++ [line]) := by
    intro hcodes hlong
    rw [extent_append, extent_singleton, Line.size, hcodes] at hlong
    simp at hlong
    omega
  rw [Tables.addLine]
  split
  · rename_i hline
    constructor
    · intro hadd; simp at hadd
    · intro hmis
      rcases hmis with ⟨hlabel, -⟩ | ⟨-, hlong⟩
      · simp [Line.label?, hline] at hlabel
      · exact absurd hlong (hshort (by simp [Line.codes, hline]))
  · rename_i name hline
    have hlabel : line.label? = some name := Line.label?_eq_some_iff.mpr hline
    have hcodes : line.codes = [] := by simp [Line.codes, hline]
    constructor
    · intro hadd
      by_cases hbound : (tables.label? name).isSome = true
      · rw [if_pos hbound, Except.error.injEq] at hadd
        exact hadd ▸ .redefined hlabel ((label?_isSome_iff h name).mp hbound)
      · simp [hbound] at hadd
    · rintro (⟨hlabel', hmem⟩ | ⟨-, hlong⟩)
      · rw [hlabel, Option.some.injEq] at hlabel'
        subst hlabel'
        rw [if_pos ((label?_isSome_iff h name).mpr hmem)]
      · exact absurd hlong (hshort hcodes)
  · rename_i codes hline
    have hcodes : line.codes = codes := Line.codes_of_code hline
    have hgrown : (tables.addCodes line.number codes).size = extent (lines ++ [line]) := by
      rw [addCodes_eq, hwith, Line.size, hcodes]
    simp only [hgrown]
    constructor
    · intro hadd
      by_cases hfit : extent (lines ++ [line]) ≤ programCapacity
      · rw [if_pos hfit] at hadd
        simp at hadd
      · rw [if_neg hfit, Except.error.injEq] at hadd
        exact hadd ▸ .tooLong hbefore (by omega)
    · rintro (⟨hlabel, -⟩ | ⟨-, hlong⟩)
      · simp [Line.label?, hline] at hlabel
      · rw [if_neg (by omega)]

end Tables.Describes

/-! ## Looking up -/

/-- In a table without repeated keys, a key has one entry and a lookup finds it. -/
theorem lookup_eq_some_iff {κ : Type} [BEq κ] [LawfulBEq κ] {entries : List (κ × Nat)}
    (h : (entries.map Prod.fst).Nodup) {key : κ} {address : Nat} :
    (entries.find? fun entry => entry.1 == key).map Prod.snd = some address
      ↔ (key, address) ∈ entries := by
  induction entries with
  | nil => simp
  | cons entry entries ih =>
    obtain ⟨hnew, hrest⟩ := List.nodup_cons.mp (List.map_cons ▸ h)
    by_cases hkey : entry.1 = key
    · have hbeq : (entry.1 == key) = true := by simpa using hkey
      rw [List.find?_cons_of_pos (p := fun entry : κ × Nat => entry.1 == key) hbeq, Option.map_some,
        Option.some.injEq, List.mem_cons]
      constructor
      · intro haddress
        exact .inl (by rw [← hkey, ← haddress])
      · rintro (heq | hmem)
        · rw [← heq]
        · -- the key is not among those of the other entries
          exact absurd (List.mem_map.mpr ⟨_, hmem, rfl⟩) (hkey ▸ hnew)
    · have hbeq : ¬ (entry.1 == key) = true := by simpa using hkey
      rw [List.find?_cons_of_neg (p := fun entry : κ × Nat => entry.1 == key) hbeq, ih hrest,
        List.mem_cons]
      constructor
      · exact .inr
      · rintro (heq | hmem)
        · exact absurd (by rw [← heq]) hkey
        · exact hmem

namespace Tables.Describes

variable {tables : Tables} {lines : List Line}

/-- A label is bound to the address of the line that defines it. -/
theorem label?_eq_some_iff (h : tables.Describes lines) {name : String} {address : Nat} :
    tables.label? name = some address
      ↔ ∃ (i : Nat) (line : Line), lines[i]? = some line ∧ line.label? = some name
        ∧ address = extent (lines.take i) := by
  rw [Tables.label?, ← Array.find?_toList, h.labels_eq,
    lookup_eq_some_iff (by rw [map_fst_labelEntries]; exact h.distinct), mem_labelEntries_iff]

/-- The line table has the lines with instructions, each under its number. -/
theorem line?_eq_some_iff (h : tables.Describes lines)
    (hnumbers : (lines.map Line.number).Nodup) {number address : Nat} :
    tables.line? number = some address
      ↔ ∃ (i : Nat) (line : Line), lines[i]? = some line ∧ line.codes ≠ []
        ∧ line.number = number ∧ address = extent (lines.take i) := by
  -- no number is there twice, so it does not matter that the last entry counts
  have hnodup : ((lineEntries lines).reverse.map Prod.fst).Nodup := by
    rw [List.map_reverse, List.nodup_reverse]
    exact hnumbers.sublist (map_fst_lineEntries_sublist lines)
  rw [Tables.line?, h.lines_eq, lookup_eq_some_iff hnodup, List.mem_reverse,
    mem_lineEntries_iff]

/-- An instruction is found by counting from another one. -/
theorem instr?_eq_some_iff (h : tables.Describes lines) {index address : Nat} {offset : Int} :
    tables.instr? index offset = some address
      ↔ index < offsetLimit ∧ ∃ j : Nat, (j : Int) = index + offset ∧ j < (codesOf lines).length
        ∧ address = Code.totalSize ((codesOf lines).take j) := by
  have hget : ∀ j : Nat, tables.instrs[j]? = some address
      ↔ j < (codesOf lines).length ∧ address = Code.totalSize ((codesOf lines).take j) := by
    intro j
    rw [← Array.getElem?_toList, h.instrs_eq, Code.getElem?_starts, Option.map_eq_some_iff,
      Nat.zero_add]
    constructor
    · rintro ⟨code, hcode, haddress⟩
      exact ⟨(List.getElem?_eq_some_iff.mp hcode).1, haddress.symm⟩
    · rintro ⟨hlt, haddress⟩
      exact ⟨_, List.getElem?_eq_getElem hlt, haddress.symm⟩
  rw [Tables.instr?]
  by_cases hin : index < offsetLimit ∧ 0 ≤ (index : Int) + offset
  · rw [if_pos hin, hget]
    constructor
    · rintro ⟨hlt, haddress⟩
      exact ⟨hin.1, _, Int.toNat_of_nonneg hin.2, hlt, haddress⟩
    · rintro ⟨-, j, hj, hlt, haddress⟩
      rw [← hj, Int.toNat_natCast]
      exact ⟨hlt, haddress⟩
  · rw [if_neg hin]
    constructor
    · intro hnone
      simp at hnone
    · rintro ⟨hindex, j, hj, -, -⟩
      exact absurd ⟨hindex, by omega⟩ hin

/-- There are never so many instructions that one could not count them. -/
theorem length_codesOf_lt (h : tables.Describes lines) :
    (codesOf lines).length < offsetLimit := by
  -- each instruction takes a word at least, and there is room for few of them
  have hlen := Code.length_le_totalSize (codesOf lines)
  have hsize := h.size_le
  rw [h.size_eq, extent_eq_totalSize] at hsize
  simp only [programCapacity, offsetLimit] at hsize ⊢
  omega

theorem instr?_zero (h : tables.Describes lines) {k : Nat} (hk : k < (codesOf lines).length) :
    tables.instr? k 0 = some (Code.totalSize ((codesOf lines).take k)) :=
  h.instr?_eq_some_iff.mpr
    ⟨Nat.lt_trans hk h.length_codesOf_lt, k, (Int.add_zero _).symm, hk, rfl⟩

end Tables.Describes

/-! ## All lines -/

/-- The tables of a source that the first pass accepts. -/
theorem describes_of_collect {lines : List Line} {tables : Tables}
    (h : Tables.collect lines = .ok tables) : tables.Describes lines := by
  induction lines using List.reverseRecOn generalizing tables with
  | nil =>
    obtain rfl : {} = tables := by simpa [Tables.collect, pure, Except.pure] using h
    exact .nil
  | append_singleton lines line ih =>
    rw [Tables.collect, List.foldlM_append] at h
    obtain ⟨before, hbefore, hadd⟩ := bind_eq_ok_iff.mp h
    exact (ih hbefore).addLine (by simpa using hadd)

/-- Something is wrong with line number `i + 1` where it stands. -/
def MisplacedAt (lines : List Line) (i : Nat) (e : Error) : Prop :=
  ∃ line, lines[i]? = some line ∧ Misplaced (lines.take i) line e

/-- The first pass fails with what is wrong with the first misplaced line. -/
theorem collect_eq_error_iff (lines : List Line) (e : Error) :
    Tables.collect lines = .error e ↔ First (MisplacedAt lines) e := by
  refine foldlM_eq_error_iff ?_ ?_ e
  · rintro i e' ⟨line, hline, -⟩
    exact (List.getElem?_eq_some_iff.mp hline).1
  · intro i line tables e' hline htables
    rw [(describes_of_collect htables).addLine_eq_error_iff]
    constructor
    · intro hmis
      exact ⟨line, hline, hmis⟩
    · rintro ⟨line', hline', hmis⟩
      rw [hline, Option.some.injEq] at hline'
      exact hline' ▸ hmis

end StackMachine.Assembly
