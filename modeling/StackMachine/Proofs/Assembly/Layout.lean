/-
Where the lines and the instructions of a source stand.

Everything the first pass computes is a prefix sum: an instruction stands at
the size of the instructions before it, a line and a label at the size of the
lines before them. This file says so without the pass: `extent` for the size of
a run of lines, `Code.starts` for the addresses of a run of instructions,
`placed` for lines with their addresses, and the entries of the label and line
tables read off `placed`. That the pass computes exactly this is the next file.
-/
import StackMachine.Assembly.Tables
import StackMachine.Proofs.FirstError
import Mathlib.Data.List.Induction
import Mathlib.Algebra.Ring.Nat

set_option autoImplicit false

namespace StackMachine.Source

/-! ## Instructions in a row -/

namespace Code

@[simp] theorem totalSize_nil : totalSize [] = 0 := rfl

@[simp] theorem totalSize_cons (code : Code) (codes : List Code) :
    totalSize (code :: codes) = code.op.size + totalSize codes := rfl

@[simp] theorem totalSize_append (left right : List Code) :
    totalSize (left ++ right) = totalSize left + totalSize right := by
  induction left with
  | nil => rw [List.nil_append, totalSize_nil, Nat.zero_add]
  | cons code left ih => rw [List.cons_append, totalSize_cons, totalSize_cons, ih, Nat.add_assoc]

/-- The size of a run is the sum of the sizes of its operations. -/
theorem totalSize_eq_sum (codes : List Code) :
    totalSize codes = (codes.map fun code => code.op.size).sum := by
  induction codes with
  | nil => rfl
  | cons code codes ih => rw [totalSize_cons, ih, List.map_cons, List.sum_cons]

/-- No instruction is empty. -/
theorem length_le_totalSize (codes : List Code) : codes.length ≤ totalSize codes := by
  induction codes with
  | nil => exact Nat.le_refl 0
  | cons code codes ih =>
    have hpos := code.op.size_pos
    rw [List.length_cons, totalSize_cons]
    omega

theorem totalSize_take_le (codes : List Code) (k : Nat) :
    totalSize (codes.take k) ≤ totalSize codes := by
  have hsplit := totalSize_append (codes.take k) (codes.drop k)
  rw [List.take_append_drop] at hsplit
  omega

/-- Each instruction starts where the one before it ends. -/
theorem totalSize_take_succ {codes : List Code} {k : Nat} {code : Code}
    (hk : codes[k]? = some code) :
    totalSize (codes.take (k + 1)) = totalSize (codes.take k) + code.op.size := by
  rw [List.take_add_one, hk, totalSize_append]
  simp

/-- An instruction ends inside its run. -/
theorem totalSize_take_lt {codes : List Code} {k : Nat} {code : Code} (hk : codes[k]? = some code) :
    totalSize (codes.take k) + code.op.size ≤ totalSize codes := by
  rw [← totalSize_take_succ hk]
  exact totalSize_take_le codes (k + 1)

/-- The addresses of a run of instructions, the first of them at `address`. -/
def starts (address : Nat) : List Code → List Nat
  | [] => []
  | code :: codes => address :: starts (address + code.op.size) codes

theorem starts_append (address : Nat) (left right : List Code) :
    starts address (left ++ right)
      = starts address left ++ starts (address + totalSize left) right := by
  induction left generalizing address with
  | nil => rfl
  | cons code left ih =>
    rw [List.cons_append, starts, starts, ih, totalSize_cons, List.cons_append, Nat.add_assoc]

theorem length_starts (address : Nat) (codes : List Code) :
    (starts address codes).length = codes.length := by
  induction codes generalizing address with
  | nil => rfl
  | cons code codes ih => rw [starts, List.length_cons, List.length_cons, ih]

theorem getElem?_starts (address k : Nat) (codes : List Code) :
    (starts address codes)[k]? = codes[k]?.map fun _ => address + totalSize (codes.take k) := by
  induction codes generalizing address k with
  | nil => rfl
  | cons code codes ih =>
    rcases k with _ | k
    · simp [starts]
    · rw [starts, List.getElem?_cons_succ, ih, List.getElem?_cons_succ, List.take_succ_cons,
        totalSize_cons, Nat.add_assoc]

end Code

theorem Line.codes_of_code {line : Line} {codes : List Code}
    (h : line.statement = some (.code codes)) : line.codes = codes := by
  rw [Line.codes, h]

/-- The label that a line defines. -/
def Line.label? (line : Line) : Option String :=
  match line.statement with
  | some (.label name) => some name
  | _ => none

theorem Line.label?_eq_some_iff {line : Line} {name : String} :
    line.label? = some name ↔ line.statement = some (.label name) := by
  unfold label?
  split <;> simp_all

end StackMachine.Source

namespace StackMachine.Assembly

open Source

/-! ## Lines in a row -/

/-- The instructions of all lines, in order. -/
def codesOf (lines : List Line) : List Code :=
  lines.flatMap Line.codes

/-- The labels that lines define, in order. -/
def labelsOf (lines : List Line) : List String :=
  lines.filterMap Line.label?

/-- Encoded size of lines in words. -/
def extent (lines : List Line) : Nat :=
  (lines.map Line.size).sum

@[simp] theorem codesOf_append (left right : List Line) :
    codesOf (left ++ right) = codesOf left ++ codesOf right := by
  simp [codesOf]

@[simp] theorem labelsOf_append (left right : List Line) :
    labelsOf (left ++ right) = labelsOf left ++ labelsOf right := by
  simp [labelsOf]

@[simp] theorem extent_append (left right : List Line) :
    extent (left ++ right) = extent left + extent right := by
  simp [extent]

@[simp] theorem extent_singleton (line : Line) : extent [line] = line.size := by
  simp [extent]

theorem extent_eq_totalSize (lines : List Line) :
    extent lines = Code.totalSize (codesOf lines) := by
  induction lines with
  | nil => rfl
  | cons line lines ih =>
    have hcodes : codesOf (line :: lines) = line.codes ++ codesOf lines := List.flatMap_cons
    have hextent : extent (line :: lines) = line.size + extent lines := by simp [extent]
    rw [hcodes, Code.totalSize_append, hextent, ih, Line.size]

theorem extent_take_le (lines : List Line) (i : Nat) : extent (lines.take i) ≤ extent lines := by
  have hsplit := extent_append (lines.take i) (lines.drop i)
  rw [List.take_append_drop] at hsplit
  omega

/-- Counting lines up to `i` counts a first part of the instructions. -/
theorem codesOf_take (lines : List Line) (i : Nat) :
    (codesOf lines).take (codesOf (lines.take i)).length = codesOf (lines.take i) := by
  have hsplit := codesOf_append (lines.take i) (lines.drop i)
  rw [List.take_append_drop] at hsplit
  rw [hsplit, List.take_left]

/-- The instructions of a line follow those of the lines before it. -/
theorem codesOf_drop {lines : List Line} {i : Nat} {line : Line} (hi : lines[i]? = some line) :
    (codesOf lines).drop (codesOf (lines.take i)).length
      = line.codes ++ codesOf (lines.drop (i + 1)) := by
  obtain ⟨hlt, hline⟩ := List.getElem?_eq_some_iff.mp hi
  have hsplit := codesOf_append (lines.take i) (lines.drop i)
  rw [List.take_append_drop, List.drop_eq_getElem_cons hlt, hline] at hsplit
  rw [hsplit, List.drop_left]
  exact List.flatMap_cons

/-- A line stands at the address of its first instruction or, if neither it nor
a later line has one, at the end. -/
theorem extent_take_eq (lines : List Line) (i : Nat) :
    extent (lines.take i)
      = Code.totalSize ((codesOf lines).take (codesOf (lines.take i)).length) := by
  rw [codesOf_take, extent_eq_totalSize]

theorem length_codesOf_take_le (lines : List Line) (i : Nat) :
    (codesOf (lines.take i)).length ≤ (codesOf lines).length := by
  have hsplit := codesOf_append (lines.take i) (lines.drop i)
  rw [List.take_append_drop] at hsplit
  rw [hsplit, List.length_append]
  omega

/-- A line with instructions stands before the end. -/
theorem length_codesOf_take_lt {lines : List Line} {i : Nat} {line : Line}
    (hi : lines[i]? = some line) (hcodes : line.codes ≠ []) :
    (codesOf (lines.take i)).length < (codesOf lines).length := by
  -- with the line itself there are more instructions than before it, and not
  -- more than in all lines
  have hnext := length_codesOf_take_le lines (i + 1)
  have hpos := List.length_pos_of_ne_nil hcodes
  rw [List.take_add_one, hi, codesOf_append, List.length_append] at hnext
  simp only [codesOf, Option.toList_some, List.flatMap_singleton] at hnext ⊢
  omega

/-! ## Lines with their addresses -/

/-- Each line with its address, the first of them at `address`. -/
def placed (address : Nat) : List Line → List (Nat × Line)
  | [] => []
  | line :: lines => (address, line) :: placed (address + line.size) lines

theorem placed_append (address : Nat) (left right : List Line) :
    placed address (left ++ right)
      = placed address left ++ placed (address + extent left) right := by
  induction left generalizing address with
  | nil => rfl
  | cons line left ih =>
    have hextent : extent (line :: left) = line.size + extent left := by simp [extent]
    rw [List.cons_append, placed, placed, ih, hextent, List.cons_append, Nat.add_assoc]

theorem getElem?_placed (address i : Nat) (lines : List Line) :
    (placed address lines)[i]?
      = lines[i]?.map fun line => (address + extent (lines.take i), line) := by
  induction lines generalizing address i with
  | nil => rfl
  | cons line lines ih =>
    rcases i with _ | i
    · simp [placed, extent]
    · rw [placed, List.getElem?_cons_succ, ih, List.getElem?_cons_succ, List.take_succ_cons]
      simp [extent, Nat.add_assoc]

theorem mem_placed_iff {lines : List Line} {address : Nat} {line : Line} :
    (address, line) ∈ placed 0 lines
      ↔ ∃ i : Nat, lines[i]? = some line ∧ address = extent (lines.take i) := by
  rw [List.mem_iff_getElem?]
  constructor
  · rintro ⟨i, hi⟩
    rw [getElem?_placed, Nat.zero_add] at hi
    obtain ⟨line', hline, heq⟩ := Option.map_eq_some_iff.mp hi
    rw [Prod.mk.injEq] at heq
    exact ⟨i, by rw [hline, heq.2], heq.1.symm⟩
  · rintro ⟨i, hi, rfl⟩
    refine ⟨i, ?_⟩
    rw [getElem?_placed, hi, Nat.zero_add, Option.map_some]

/-- The label table: each label with the address of its line. -/
def labelEntries (lines : List Line) : List (String × Nat) :=
  (placed 0 lines).filterMap fun entry => entry.2.label?.map fun name => (name, entry.1)

/-- The line table: each line that has instructions with its address. -/
def lineEntries (lines : List Line) : List (Nat × Nat) :=
  (placed 0 lines).filterMap fun entry =>
    if entry.2.codes = [] then none else some (entry.2.number, entry.1)

theorem labelEntries_append (lines : List Line) (line : Line) :
    labelEntries (lines ++ [line])
      = labelEntries lines ++ (line.label?.map fun name => (name, extent lines)).toList := by
  rw [labelEntries, placed_append, List.filterMap_append, Nat.zero_add]
  rcases h : line.label? with _ | name
  · simp [labelEntries, placed, h]
  · simp [labelEntries, placed, h]

theorem lineEntries_append (lines : List Line) (line : Line) :
    lineEntries (lines ++ [line])
      = lineEntries lines
        ++ if line.codes = [] then [] else [(line.number, extent lines)] := by
  rw [lineEntries, placed_append, List.filterMap_append, Nat.zero_add]
  by_cases h : line.codes = []
  · simp [lineEntries, placed, h]
  · simp [lineEntries, placed, h]

theorem mem_labelEntries_iff {lines : List Line} {name : String} {address : Nat} :
    (name, address) ∈ labelEntries lines
      ↔ ∃ (i : Nat) (line : Line), lines[i]? = some line ∧ line.label? = some name
        ∧ address = extent (lines.take i) := by
  rw [labelEntries, List.mem_filterMap]
  constructor
  · rintro ⟨⟨a, line⟩, hmem, hentry⟩
    obtain ⟨name', hname, heq⟩ := Option.map_eq_some_iff.mp hentry
    rw [Prod.mk.injEq] at heq
    obtain ⟨i, hi, ha⟩ := mem_placed_iff.mp hmem
    exact ⟨i, line, hi, by rw [hname, heq.1], by rw [← heq.2]; exact ha⟩
  · rintro ⟨i, line, hi, hname, ha⟩
    exact ⟨(address, line), mem_placed_iff.mpr ⟨i, hi, ha⟩, by rw [hname, Option.map_some]⟩

theorem mem_lineEntries_iff {lines : List Line} {number address : Nat} :
    (number, address) ∈ lineEntries lines
      ↔ ∃ (i : Nat) (line : Line), lines[i]? = some line ∧ line.codes ≠ [] ∧ line.number = number
        ∧ address = extent (lines.take i) := by
  rw [lineEntries, List.mem_filterMap]
  constructor
  · rintro ⟨⟨a, line⟩, hmem, hentry⟩
    by_cases hcodes : line.codes = []
    · simp [hcodes] at hentry
    · rw [if_neg hcodes, Option.some.injEq, Prod.mk.injEq] at hentry
      obtain ⟨i, hi, ha⟩ := mem_placed_iff.mp hmem
      exact ⟨i, line, hi, hcodes, hentry.1, by rw [← hentry.2]; exact ha⟩
  · rintro ⟨i, line, hi, hcodes, hnumber, ha⟩
    exact ⟨(address, line), mem_placed_iff.mpr ⟨i, hi, ha⟩, by rw [if_neg hcodes, hnumber]⟩

theorem map_fst_labelEntries (lines : List Line) :
    (labelEntries lines).map Prod.fst = labelsOf lines := by
  induction lines using List.reverseRecOn with
  | nil => rfl
  | append_singleton lines line ih =>
    rw [labelEntries_append, labelsOf_append, List.map_append, ih]
    rcases h : line.label? with _ | name
    · simp [labelsOf, h]
    · simp [labelsOf, h]

theorem map_fst_lineEntries_sublist (lines : List Line) :
    ((lineEntries lines).map Prod.fst).Sublist (lines.map Line.number) := by
  induction lines using List.reverseRecOn with
  | nil => exact List.Sublist.refl _
  | append_singleton lines line ih =>
    rw [lineEntries_append, List.map_append, List.map_append]
    refine ih.append ?_
    by_cases h : line.codes = []
    · simp [h]
    · simp [h]

end StackMachine.Assembly
