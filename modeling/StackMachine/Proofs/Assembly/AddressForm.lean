/-
Operands that mean the same word can be written for one another.

An address can be written as a number, as a label, as an offset or as a line. Which of
these forms is chosen has no effect on where anything stands: the first pass looks at
operations only (`collect_outline`), so a change of operands changes no table. It follows
that any operands of an accepted source can be replaced by others that mean the same words
in the tables of that source, also all references at once by the words they resolve to.
-/
import StackMachine.Proofs.Assembly.Outcome

set_option autoImplicit false

namespace StackMachine.Source

/-! ## What the first pass sees -/

/-- The instruction without its operand. -/
def Code.outline (code : Code) : Code :=
  ⟨code.op, none⟩

/-- The line without its text and without the operands of its instructions. -/
def Line.outline (line : Line) : Line where
  number := line.number
  raw := ""
  statement :=
    match line.statement with
    | some (.code codes) => some (.code (codes.map Code.outline))
    | other => other

end StackMachine.Source

namespace StackMachine.Assembly

open Source

theorem codes_outline (line : Line) : line.outline.codes = line.codes.map Code.outline := by
  rw [Line.codes, Line.codes, Line.outline]
  rcases line.statement with _ | name | codes
  · rfl
  · rfl
  · rfl

theorem codesOf_outline (lines : List Line) :
    codesOf (lines.map Line.outline) = (codesOf lines).map Code.outline := by
  rw [codesOf, codesOf, List.flatMap_map, List.map_flatMap]
  simp only [codes_outline]

theorem Tables.addCodes_outline (tables : Tables) (number : Nat) (codes : List Code) :
    tables.addCodes number (codes.map Code.outline) = tables.addCodes number codes := by
  rw [addCodes, addCodes, List.foldl_map, List.isEmpty_map]
  rfl

theorem Tables.addLine_outline (tables : Tables) (line : Line) :
    tables.addLine line.outline = tables.addLine line := by
  rw [addLine, addLine, Line.outline]
  rcases line.statement with _ | name | codes
  · rfl
  · rfl
  · simp only [addCodes_outline]

/-- The first pass never looks at an operand. -/
theorem collect_outline (lines : List Line) :
    Tables.collect (lines.map Line.outline) = Tables.collect lines := by
  rw [Tables.collect, Tables.collect, List.foldlM_map]
  simp only [Tables.addLine_outline]

theorem collect_eq_of_outline {lines lines' : List Line}
    (h : lines.map Line.outline = lines'.map Line.outline) :
    Tables.collect lines' = Tables.collect lines := by
  rw [← collect_outline lines', ← h, collect_outline]

/-! ## Replacing operands -/

/-- The word that an operand of instruction number `index` means. -/
def Means (tables : Tables) (index : Nat) : Operand → Word → Prop
  | .literal w, word => w = word
  | .reference target, word => tables.resolve index target = .ok word

/-- Instruction number `index` with its operand kept, or replaced by one that means the same
word. -/
inductive Restated (tables : Tables) (index : Nat) : Code → Code → Prop where
  | kept (code : Code) : Restated tables index code code
  | replaced {op : Op} {operand operand' : Operand} {word : Word} :
      Means tables index operand word → Means tables index operand' word →
      Restated tables index ⟨op, some operand⟩ ⟨op, some operand'⟩

/-- Lines that differ in their texts and in some operands, and there in the form only. -/
structure Rephrased (tables : Tables) (lines lines' : List Line) : Prop where
  outline_eq : lines.map Line.outline = lines'.map Line.outline
  restated : ∀ (k : Nat) (code code' : Code), (codesOf lines)[k]? = some code →
    (codesOf lines')[k]? = some code' → Restated tables k code code'

theorem operandWord_of_means {tables : Tables} {index : Nat} {operand : Operand} {word : Word}
    (h : Means tables index operand word) :
    operandWord tables index (some operand) = .ok (some word) := by
  rcases operand with ⟨w⟩ | ⟨target⟩
  · obtain rfl : w = word := h
    rfl
  · rw [operandWord, show tables.resolve index target = .ok word from h]
    rfl

namespace Restated

variable {tables : Tables} {index : Nat} {code code' : Code}

theorem op_eq (h : Restated tables index code code') : code'.op = code.op := by
  rcases h with _ | ⟨_, _⟩
  · rfl
  · rfl

/-- An operand and what it is replaced by resolve alike. -/
theorem operandWord_eq (h : Restated tables index code code') :
    operandWord tables index code'.operand = operandWord tables index code.operand := by
  rcases h with _ | ⟨hword, hword'⟩
  · rfl
  · rw [operandWord_of_means hword, operandWord_of_means hword']

end Restated

namespace Rephrased

variable {tables : Tables} {lines lines' : List Line}

theorem length_codesOf (h : Rephrased tables lines lines') :
    (codesOf lines').length = (codesOf lines).length := by
  have hcodes := congrArg (fun ls => (codesOf ls).length) h.outline_eq
  simpa only [codesOf_outline, List.length_map] using hcodes.symm

/-- Rephrased instructions resolve to the same ones. -/
theorem resolves (h : Rephrased tables lines lines') {bares : List Bare}
    (hresolves : Resolves tables (codesOf lines) bares) :
    Resolves tables (codesOf lines') bares := by
  refine ⟨by rw [hresolves.length_eq, h.length_codesOf], ?_⟩
  intro k code' hk'
  -- the instruction in whose place it stands has the same number
  have hlt : k < (codesOf lines).length :=
    h.length_codesOf ▸ (List.getElem?_eq_some_iff.mp hk').1
  have hk := List.getElem?_eq_getElem hlt
  have hrestated := h.restated k _ code' hk hk'
  obtain ⟨operand, hget, hoperand⟩ := hresolves.bare_eq k _ hk
  refine ⟨operand, ?_, ?_⟩
  · rw [hrestated.op_eq]
    exact hget
  · rw [hrestated.operandWord_eq]
    exact hoperand

/-- Rephrased lines have the same tables and the same words. -/
theorem ofLines_eq {assembly : Assembly} (hlines : ofLines lines = .ok assembly)
    (h : Rephrased assembly.tables lines lines') :
    ofLines lines' = .ok ⟨lines', assembly.tables, assembly.words⟩ := by
  obtain ⟨-, hcollect, bares, hbares, hwords⟩ := ofLines_eq_ok_iff.mp hlines
  refine ofLines_eq_ok_iff.mpr ⟨rfl, ?_, bares, h.resolves hbares, hwords⟩
  rw [collect_eq_of_outline h.outline_eq, hcollect]

end Rephrased

/-! ## References written as literals -/

/-- The operand of instruction number `index` as a literal, if it has a word. -/
def asLiteral (tables : Tables) (index : Nat) : Operand → Operand
  | .literal w => .literal w
  | .reference target =>
    match tables.resolve index target with
    | .ok word => .literal word
    | .error _ => .reference target

/-- Instructions with literals for operands, the first of them with number `index`. -/
def literalCodes (tables : Tables) (index : Nat) : List Code → List Code
  | [] => []
  | code :: codes =>
    ⟨code.op, code.operand.map (asLiteral tables index)⟩ :: literalCodes tables (index + 1) codes

/-- Lines with literals for operands, the first instruction of them with number `index`. -/
def literalLines (tables : Tables) (index : Nat) : List Line → List Line
  | [] => []
  | line :: lines =>
    { line with
      statement :=
        match line.statement with
        | some (.code codes) => some (.code (literalCodes tables index codes))
        | other => other }
      :: literalLines tables (index + line.codes.length) lines

variable (tables : Tables)

theorem getElem?_literalCodes (index k : Nat) (codes : List Code) :
    (literalCodes tables index codes)[k]?
      = codes[k]?.map fun code => ⟨code.op, code.operand.map (asLiteral tables (index + k))⟩ := by
  induction codes generalizing index k with
  | nil => rfl
  | cons code codes ih =>
    rcases k with _ | k
    · rfl
    · rw [literalCodes, List.getElem?_cons_succ, ih, List.getElem?_cons_succ, Nat.add_right_comm,
        Nat.add_assoc]

theorem literalCodes_append (index : Nat) (left right : List Code) :
    literalCodes tables index (left ++ right)
      = literalCodes tables index left ++ literalCodes tables (index + left.length) right := by
  induction left generalizing index with
  | nil => rfl
  | cons code left ih =>
    rw [List.cons_append, literalCodes, literalCodes, ih, List.cons_append, List.length_cons,
      Nat.add_right_comm, Nat.add_assoc]

theorem codesOf_literalLines (index : Nat) (lines : List Line) :
    codesOf (literalLines tables index lines) = literalCodes tables index (codesOf lines) := by
  induction lines generalizing index with
  | nil => rfl
  | cons line lines ih =>
    have hcons : codesOf (line :: lines) = line.codes ++ codesOf lines := List.flatMap_cons
    rw [hcons, literalCodes_append, ← ih, literalLines, codesOf, List.flatMap_cons, ← codesOf]
    congr 1
    rw [Line.codes, Line.codes]
    rcases line.statement with _ | name | codes
    · rfl
    · rfl
    · rfl

theorem outline_literalCodes (index : Nat) (codes : List Code) :
    (literalCodes tables index codes).map Code.outline = codes.map Code.outline := by
  induction codes generalizing index with
  | nil => rfl
  | cons code codes ih => rw [literalCodes, List.map_cons, List.map_cons, ih]; rfl

theorem outline_literalLines (index : Nat) (lines : List Line) :
    (literalLines tables index lines).map Line.outline = lines.map Line.outline := by
  induction lines generalizing index with
  | nil => rfl
  | cons line lines ih =>
    rw [literalLines, List.map_cons, List.map_cons, ih]
    congr 1
    rw [Line.outline, Line.outline]
    rcases line.statement with _ | name | codes
    · rfl
    · rfl
    · simp only [outline_literalCodes]

variable {tables}

/-- A reference of an assembled source has a word. -/
theorem Resolves.exists_word {codes : List Code} {bares : List Bare}
    (h : Resolves tables codes bares) {k : Nat} {code : Code} {target : Reference}
    (hk : codes[k]? = some code) (htarget : code.operand = some (.reference target)) :
    ∃ word, tables.resolve k target = .ok word := by
  obtain ⟨operand, -, hoperand⟩ := h.bare_eq k code hk
  rw [htarget, operandWord] at hoperand
  obtain ⟨word, hword, -⟩ := map_eq_ok_iff.mp hoperand
  exact ⟨word, hword⟩

theorem asLiteral_of_resolve {k : Nat} {target : Reference} {word : Word}
    (h : tables.resolve k target = .ok word) :
    asLiteral tables k (.reference target) = .literal word := by
  rw [asLiteral, h]

/-- The instructions of an assembled source can be written with literals. -/
theorem restated_asLiteral {codes : List Code} {bares : List Bare}
    (h : Resolves tables codes bares) {k : Nat} {code : Code} (hk : codes[k]? = some code) :
    Restated tables k code ⟨code.op, code.operand.map (asLiteral tables k)⟩ := by
  obtain ⟨op, operand⟩ := code
  -- only a reference changes
  rcases operand with _ | ⟨w⟩ | ⟨target⟩
  · exact .kept _
  · exact .kept _
  · obtain ⟨word, hword⟩ := h.exists_word hk rfl
    rw [Option.map_some, asLiteral_of_resolve hword]
    exact .replaced hword rfl

theorem rephrased_literalLines {lines : List Line} {bares : List Bare}
    (h : Resolves tables (codesOf lines) bares) :
    Rephrased tables lines (literalLines tables 0 lines) := by
  refine ⟨(outline_literalLines tables 0 lines).symm, ?_⟩
  intro k code code' hk hk'
  rw [codesOf_literalLines, getElem?_literalCodes, hk, Nat.zero_add, Option.map_some,
    Option.some.injEq] at hk'
  rw [← hk']
  exact restated_asLiteral h hk

/-- **Address forms are interchangeable.** If any operands of assembled lines are replaced
by others that mean the same words in the tables of these lines, the result is assembled
too, to the same words and with the same tables. In particular every reference can be
replaced by a literal, which is the word it resolves to. -/
theorem ofLines_rephrased {lines : List Line} {assembly : Assembly}
    (h : ofLines lines = .ok assembly) :
    (∀ lines', Rephrased assembly.tables lines lines' →
      ofLines lines' = .ok ⟨lines', assembly.tables, assembly.words⟩)
    ∧ (let literals := literalLines assembly.tables 0 lines
      ofLines literals = .ok ⟨literals, assembly.tables, assembly.words⟩
      ∧ ∀ (k : Nat) (code : Code) (target : Reference), (codesOf lines)[k]? = some code →
        code.operand = some (.reference target) →
        ∃ word, assembly.tables.resolve k target = .ok word
          ∧ (codesOf literals)[k]? = some ⟨code.op, some (.literal word)⟩) := by
  obtain ⟨-, -, bares, hbares, -⟩ := ofLines_eq_ok_iff.mp h
  refine ⟨fun lines' hlines' => hlines'.ofLines_eq h, (rephrased_literalLines hbares).ofLines_eq h, ?_⟩
  intro k code target hk htarget
  obtain ⟨word, hword⟩ := hbares.exists_word hk htarget
  refine ⟨word, hword, ?_⟩
  rw [codesOf_literalLines, getElem?_literalCodes, hk, Nat.zero_add, Option.map_some, htarget,
    Option.map_some, asLiteral_of_resolve hword]

/-- One address in three forms: a label, a line and an offset that goes back over it. -/
theorem ofLines_rephrased_sample :
    let start : Line := ⟨1, "start:", some (.label "start")⟩
    let byLabel : Line := ⟨2, "jmp @start",
      some (.code [⟨.push, some (.reference (.label "start"))⟩, ⟨.jmp, none⟩])⟩
    let byLine : Line := ⟨2, "jmp @2",
      some (.code [⟨.push, some (.reference (.line 2))⟩, ⟨.jmp, none⟩])⟩
    let byOffset : Line := ⟨2, "jmp @+0",
      some (.code [⟨.push, some (.reference (.relative 0))⟩, ⟨.jmp, none⟩])⟩
    ∃ assembly, ofLines [start, byLabel] = .ok assembly ∧ assembly.words = #[1, 0, 23]
      ∧ ofLines [start, byLine] = .ok ⟨[start, byLine], assembly.tables, assembly.words⟩
      ∧ ofLines [start, byOffset] = .ok ⟨[start, byOffset], assembly.tables, assembly.words⟩ := by
  intro start byLabel byLine byOffset
  obtain ⟨assembly, h, hfacts⟩ : ∃ assembly, ofLines [start, byLabel] = .ok assembly
      ∧ (assembly.words, assembly.tables.resolve 0 (.label "start"),
          assembly.tables.resolve 0 (.relative 0)) = (#[1, 0, 23], .ok 0, .ok 0) :=
    eq_ok_of_toOption_map (by decide +kernel)
  rw [Prod.mk.injEq, Prod.mk.injEq] at hfacts
  obtain ⟨hwords, hlabel, hoffset⟩ := hfacts
  have hline : assembly.tables.resolve 0 (.line 2) = .ok 0 := by
    have hdescribes := describes_of_collect (ofLines_eq_ok_iff.mp h).2.1
    have hentry : assembly.tables.line? 2 = some 0 := by
      rw [Tables.line?, hdescribes.lines_eq]
      decide
    rw [Tables.resolve, Tables.address, hentry]
    rfl
  -- the two codes of the second line are all there are, and only the first is replaced
  have hrephrased : ∀ {target : Reference} {raw : String},
      assembly.tables.resolve 0 target = .ok 0 →
      Rephrased assembly.tables [start, byLabel]
        [start, ⟨2, raw, some (.code [⟨.push, some (.reference target)⟩, ⟨.jmp, none⟩])⟩] := by
    intro target raw htarget
    refine ⟨rfl, ?_⟩
    rintro (_ | _ | k) code code' hk hk'
    · obtain rfl := Option.some.inj hk
      obtain rfl := Option.some.inj hk'
      exact .replaced hlabel htarget
    · obtain rfl := Option.some.inj hk
      obtain rfl := Option.some.inj hk'
      exact .kept _
    · simp [codesOf, Line.codes, start, byLabel] at hk
  obtain ⟨hall, -⟩ := ofLines_rephrased h
  exact ⟨assembly, h, hwords, hall _ (hrephrased hline), hall _ (hrephrased hoffset)⟩

end StackMachine.Assembly
