/-
Lines do not matter, what stands on them does.

Read in order and without regard to where one line ends and the next begins, lines say a
row of items: label definitions and instructions. As long as no operand names a line by
its number, an assembly is a function of this row (`unplaced_ofLines`): `ofItems` assembles
items and never sees a line. The first pass checks the size of the program after each line
and `Tables.addItem` after each instruction; both stop with the same problem, because a
program that is too long stays too long.

What follows is that source can be regrouped: blank lines can come and go, a destination
can be pushed on a line of its own, a count can be written out.
-/
import StackMachine.Proofs.Assembly.Outcome
import StackMachine.Proofs.Source.Lexeme
import StackMachine.Proofs.Source.Line

set_option autoImplicit false

namespace StackMachine.Source

/-! ## Results without a place -/

section Unplaced

variable {α β γ δ : Type}

/-- A result without the line that an error is reported at, seen through `view`. -/
def unplaced (view : α → β) : Except Error α → Except Problem β
  | .ok a => .ok (view a)
  | .error e => .error e.problem

theorem unplaced_eq (view : α → β) (x : Except Error α) :
    unplaced view x = translated view Error.problem x := by
  rcases x with e | a
  · rfl
  · rfl

/-- A sequence can be seen part by part if the view of the first part is enough for the
second. -/
theorem unplaced_bind {view : α → β} {view' : γ → δ} {x : Except Error α}
    {f : α → Except Error γ} {g : β → Except Problem δ}
    (h : ∀ a, x = .ok a → unplaced view' (f a) = g (view a)) :
    unplaced view' (x >>= f) = unplaced view x >>= g := by
  simp only [unplaced_eq] at h ⊢
  exact translated_bind h

theorem unplaced_map (x : Except Error α) (f : α → γ) (view : γ → δ) :
    unplaced view (x.map f) = (unplaced id x).map fun a => view (f a) := by
  rcases x with e | a
  · rfl
  · rfl

/-- A walk whose steps can be seen without their places. -/
theorem unplaced_mapM {f : α → Except Error γ} {g : β → Except Problem γ} {view : α → β}
    {l : List α} (h : ∀ a ∈ l, unplaced id (f a) = g (view a)) :
    unplaced id (l.mapM f) = (l.map view).mapM g := by
  simp only [unplaced_eq] at h ⊢
  exact translated_mapM h

end Unplaced

/-! ## Items -/

/-- One thing that a line says. -/
inductive Item where
  | label (name : String)
  | code (code : Code)
  deriving DecidableEq, Repr

/-- The instruction, if it is one. -/
def Item.code? : Item → Option Code
  | label _ => none
  | code c => some c

/-- What a line says, in order. -/
def Line.items (line : Line) : List Item :=
  match line.statement with
  | none => []
  | some (.label name) => [.label name]
  | some (.code codes) => codes.map .code

/-- The operand does not name a line by its number. -/
def Code.Unnumbered (code : Code) : Prop :=
  ∀ number, code.operand ≠ some (.reference (.line number))

end StackMachine.Source

namespace StackMachine.Assembly

open Source

/-- What lines say, in order and without regard to where they end. -/
def items (lines : List Line) : List Item :=
  lines.flatMap Line.items

/-- No operand names a line by its number. -/
def Unnumbered (lines : List Line) : Prop :=
  ∀ code ∈ codesOf lines, code.Unnumbered

@[simp] theorem items_append (left right : List Line) :
    items (left ++ right) = items left ++ items right := by
  simp [items]

theorem items_singleton (line : Line) : items [line] = line.items := by
  simp [items]

theorem filterMap_items (line : Line) : line.items.filterMap Item.code? = line.codes := by
  rw [Line.items, Line.codes]
  rcases line.statement with _ | name | codes
  · rfl
  · rfl
  · simp [List.filterMap_map, Function.comp_def, Item.code?]

theorem codesOf_eq (lines : List Line) : codesOf lines = (items lines).filterMap Item.code? := by
  rw [items, List.filterMap_flatMap, codesOf]
  simp only [filterMap_items]

/-! ## The first pass over items -/

namespace Tables

/-- The tables without the line table. -/
def unlined (tables : Tables) : Tables :=
  { tables with lines := {} }

/-- One more item at the end. -/
def addItem (tables : Tables) : Item → Except Problem Tables
  | .label name =>
    if (tables.label? name).isSome then .error (.redefinedLabel name)
    else .ok { tables with labels := tables.labels.push (name, tables.size) }
  | .code code =>
    if tables.size + code.op.size ≤ programCapacity then .ok (tables.addCode code)
    else .error (.addressOutOfBounds programCapacity)

/-- Instructions one by one fit exactly if they fit together. -/
theorem foldlM_addItem_codes {tables : Tables} (h : tables.size ≤ programCapacity)
    (codes : List Code) :
    (codes.map Item.code).foldlM addItem tables
      = if tables.size + Code.totalSize codes ≤ programCapacity then
          .ok (codes.foldl addCode tables)
        else .error (.addressOutOfBounds programCapacity) := by
  induction codes generalizing tables with
  | nil => rw [Code.totalSize_nil, Nat.add_zero, if_pos h]; rfl
  | cons code codes ih =>
    rw [List.map_cons, List.foldlM_cons, addItem, Code.totalSize_cons]
    -- sizes only grow, so the first instruction that does not fit settles the matter
    by_cases hfit : tables.size + code.op.size ≤ programCapacity
    · rw [if_pos hfit, ← Nat.add_assoc]
      exact ih hfit
    · rw [if_neg hfit, if_neg (by omega)]
      rfl

theorem unlined_addCodes (tables : Tables) (number : Nat) (codes : List Code) :
    (tables.addCodes number codes).unlined = codes.foldl addCode tables.unlined := by
  rw [addCodes_eq, foldl_addCode]
  rfl

/-- One line more is its items more, up to the line of an error. -/
theorem unplaced_addLine {tables : Tables} (h : tables.size ≤ programCapacity) (line : Line) :
    unplaced unlined (tables.addLine line) = line.items.foldlM addItem tables.unlined := by
  rw [addLine, Line.items]
  rcases line.statement with _ | name | codes
  · rfl
  · have hlabel : tables.unlined.label? name = tables.label? name := rfl
    simp only [List.foldlM_cons, List.foldlM_nil, addItem, hlabel]
    by_cases hbound : (tables.label? name).isSome = true
    · rw [if_pos hbound, if_pos hbound]
      rfl
    · rw [if_neg hbound, if_neg hbound]
      rfl
  · have hsize : (tables.addCodes line.number codes).size
        = tables.unlined.size + Code.totalSize codes := by
      rw [addCodes_eq]
      rfl
    -- the line is checked as a whole, its instructions one by one
    have hunlined : tables.unlined.size ≤ programCapacity := h
    simp only [hsize]
    rw [foldlM_addItem_codes hunlined, ← unlined_addCodes tables line.number]
    by_cases hfit : tables.unlined.size + Code.totalSize codes ≤ programCapacity
    · rw [if_pos hfit, if_pos hfit]
      rfl
    · rw [if_neg hfit, if_neg hfit]
      rfl

end Tables

/-- The first pass over lines is a pass over their items. -/
theorem unplaced_collect (lines : List Line) :
    unplaced Tables.unlined (Tables.collect lines) = (items lines).foldlM Tables.addItem {} := by
  induction lines using List.reverseRecOn with
  | nil => rfl
  | append_singleton lines line ih =>
    rw [Tables.collect, List.foldlM_append, items_append, List.foldlM_append, ← ih, items_singleton]
    apply unplaced_bind
    intro tables htables
    -- the check after each line keeps the tables within the address space
    simp only [List.foldlM_cons, List.foldlM_nil, bind_pure]
    exact Tables.unplaced_addLine (describes_of_collect htables).size_le line

/-! ## Resolution over items -/

/-- An instruction, given with its number, after resolution. -/
def bareAt (tables : Tables) (entry : Code × Nat) : Except Problem Bare :=
  (operandWord tables entry.2 entry.1.operand).map fun operand => ⟨entry.1.op, operand⟩

/-- The line table is there for operands that name lines. -/
theorem operandWord_unlined {code : Code} (h : code.Unnumbered) (tables : Tables) (index : Nat) :
    operandWord tables.unlined index code.operand = operandWord tables index code.operand := by
  rcases hoperand : code.operand with _ | ⟨w⟩ | ⟨target⟩
  · rfl
  · rfl
  · rcases target with name | offset | number
    · rfl
    · rfl
    · exact absurd hoperand (h number)

theorem unplaced_bareOf {tables : Tables} {entry : (Nat × Code) × Nat}
    (h : entry.1.2.Unnumbered) :
    unplaced id (bareOf tables entry) = bareAt tables.unlined (entry.1.2, entry.2) := by
  rw [bareOf, bareAt, operandWord_unlined h]
  rcases operandWord tables entry.2 entry.1.2.operand with problem | operand
  · rfl
  · rfl

theorem map_numberedCodes_zipIdx (lines : List Line) :
    (numberedCodes lines).zipIdx.map (fun entry => (entry.1.2, entry.2)) = (codesOf lines).zipIdx := by
  rw [← map_snd_numberedCodes, List.zipIdx_map]
  rfl

/-- Resolution does not see the lines that instructions stand on. -/
theorem unplaced_resolve {lines : List Line} (h : Unnumbered lines) (tables : Tables) :
    unplaced id (resolve tables (emit lines))
      = ((codesOf lines).zipIdx.mapM (bareAt tables.unlined)).map Bare.encode := by
  have hbares : unplaced id ((numberedCodes lines).zipIdx.mapM (bareOf tables))
      = (codesOf lines).zipIdx.mapM (bareAt tables.unlined) := by
    rw [← map_numberedCodes_zipIdx]
    apply unplaced_mapM
    intro entry hentry
    apply unplaced_bareOf
    apply h
    have hmem := List.mem_map_of_mem (f := fun entry => (entry.1.2, entry.2)) hentry
    rw [map_numberedCodes_zipIdx] at hmem
    exact List.fst_mem_of_mem_zipIdx hmem
  rw [resolve_emit, unplaced_map, hbares]
  rfl

/-! ## Assembling items -/

/-- The words and the tables of a row of items. -/
def ofItems (row : List Item) : Except Problem (Program × Tables) := do
  let tables ← row.foldlM Tables.addItem {}
  let bares ← (row.filterMap Item.code?).zipIdx.mapM (bareAt tables)
  return ((Bare.encode bares).toArray, tables)

/-- What of an assembly does not depend on lines. -/
def essence (assembly : Assembly) : Program × Tables :=
  (assembly.words, assembly.tables.unlined)

/-- **Assembling lines is assembling their items.** -/
theorem unplaced_ofLines {lines : List Line} (h : Unnumbered lines) :
    unplaced essence (ofLines lines) = ofItems (items lines) := by
  rw [ofLines, ofItems, ← unplaced_collect, ← codesOf_eq]
  apply unplaced_bind
  intro tables _
  rw [bind_pure_eq_map, bind_pure_eq_map, unplaced_map, unplaced_resolve h, map_map_eq]
  rfl

/-! ## Regrouping -/

/-- Two results of an assembly differ in lines only: the words, the labels and the
instructions are the same, or the same problem is found. -/
inductive AgreeUpToLines : Except Error Assembly → Except Error Assembly → Prop where
  | assembled {left right : Assembly} : left.words = right.words →
      left.tables.labels = right.tables.labels → left.tables.instrs = right.tables.instrs →
      left.tables.size = right.tables.size → AgreeUpToLines (.ok left) (.ok right)
  | failed {left right : Error} : left.problem = right.problem →
      AgreeUpToLines (.error left) (.error right)

theorem agreeUpToLines_of_unplaced {x y : Except Error Assembly}
    (h : unplaced essence x = unplaced essence y) : AgreeUpToLines x y := by
  rcases x with e | left
  · rcases y with e' | right
    · exact .failed (by simpa [unplaced] using h)
    · simp [unplaced] at h
  · rcases y with e' | right
    · simp [unplaced] at h
    · have heq : essence left = essence right := by simpa [unplaced] using h
      have htables : left.tables.unlined = right.tables.unlined := congrArg Prod.snd heq
      rw [Tables.unlined, Tables.unlined, Tables.mk.injEq] at htables
      obtain ⟨hlabels, -, hinstrs, hsize⟩ := htables
      exact .assembled (congrArg Prod.fst heq) hlabels hinstrs hsize

theorem unnumbered_of_items {left right : List Line} (h : Unnumbered left)
    (hitems : items left = items right) : Unnumbered right := by
  rw [Unnumbered, codesOf_eq, ← hitems, ← codesOf_eq]
  exact h

/-- Lines that say the same items are assembled alike. -/
theorem agreeUpToLines_of_items {left right : List Line} (h : Unnumbered left)
    (hitems : items left = items right) : AgreeUpToLines (ofLines left) (ofLines right) := by
  apply agreeUpToLines_of_unplaced
  rw [unplaced_ofLines h, unplaced_ofLines (unnumbered_of_items h hitems), hitems]

/-- Wherever they stand among other lines, the one list of lines can be written for the
other. -/
def Interchangeable (left right : List Line) : Prop :=
  ∀ before after, Unnumbered (before ++ left ++ after) →
    AgreeUpToLines (ofLines (before ++ left ++ after)) (ofLines (before ++ right ++ after))

theorem interchangeable_of_items {left right : List Line} (h : items left = items right) :
    Interchangeable left right := by
  intro before after hunnumbered
  apply agreeUpToLines_of_items hunnumbered
  simp only [items_append, h]

/-! ## Ways to write the same -/

/-- Reads texts that are given with their line numbers. -/
def readRows (rows : List (Nat × String)) : Except Error (List Line) :=
  rows.mapM fun row => Line.parse row.1 row.2

/-- Texts that are read as interchangeable lines, or that both cannot be read, for the same
reason. -/
def Equivalent (rows rows' : List (Nat × String)) : Prop :=
  (∃ lines lines', readRows rows = .ok lines ∧ readRows rows' = .ok lines'
      ∧ Interchangeable lines lines')
  ∨ ∃ e e', readRows rows = .error e ∧ readRows rows' = .error e' ∧ e.problem = e'.problem

theorem readRows_nil : readRows [] = .ok [] := rfl

theorem readRows_cons {number : Nat} {raw : String} {statement : Option Statement}
    {rows : List (Nat × String)} {lines : List Line}
    (h : Statement.ofLexemes (lexemes raw) = .ok statement) (hrows : readRows rows = .ok lines) :
    readRows ((number, raw) :: rows) = .ok (⟨number, raw, statement⟩ :: lines) := by
  have hparse : Line.parse number raw = .ok ⟨number, raw, statement⟩ :=
    Line.parse_eq_ok_iff.mpr ⟨statement, h, rfl⟩
  rw [readRows, List.mapM_cons, hparse, ← readRows, hrows]
  rfl

theorem readRows_cons_error {number : Nat} {raw : String} {problem : Problem}
    (h : Statement.ofLexemes (lexemes raw) = .error problem) (rows : List (Nat × String)) :
    readRows ((number, raw) :: rows) = .error (problem.at number) := by
  have hparse : Line.parse number raw = .error (problem.at number) := by
    rw [Line.parse, ← Statement.ofLexemes, h]
  rw [readRows, List.mapM_cons, hparse]
  rfl

/-- Blank lines and comment lines are no lines at all. -/
theorem equivalent_vacant {raw : String} (h : isVacant raw = true) (number : Nat) :
    Equivalent [(number, raw)] [] := by
  have hread : Statement.ofLexemes (lexemes raw) = .ok none := by
    rw [lexemes_of_isVacant h]
    rfl
  exact .inl ⟨_, _, readRows_cons hread readRows_nil, readRows_nil, interchangeable_of_items rfl⟩

section Spelling

variable {name pushName x : String} {op : Op} {raw rawPush rawAlone : String}

/-- A destination beside an operation can be pushed on a line of its own. -/
theorem equivalent_target (hname : Token.kind? name = some (.operation op))
    (htarget : op.takesTarget = true) (hpush : Token.kind? pushName = some (.operation .push))
    (hraw : lexemes raw = [name, x]) (hrawPush : lexemes rawPush = [pushName, x])
    (hrawAlone : lexemes rawAlone = [name]) (number first second : Nat) :
    Equivalent [(number, raw)] [(first, rawPush), (second, rawAlone)] := by
  have hbeside := ofLexemes_target hname htarget x
  have hpushed := ofLexemes_operand hpush rfl x
  have halone := ofLexemes_alone hname (arity_of_takesTarget htarget)
  rw [← hrawAlone] at halone
  -- the operand is read in the same way on both sides, so it is at fault on both or on none
  rcases hx : Operand.ofLexeme x with problem | operand
  · rw [hx, ← hraw] at hbeside
    rw [hx, ← hrawPush] at hpushed
    exact .inr ⟨_, _, readRows_cons_error hbeside _, readRows_cons_error hpushed _, rfl⟩
  · rw [hx, ← hraw] at hbeside
    rw [hx, ← hrawPush] at hpushed
    exact .inl ⟨_, _, readRows_cons hbeside readRows_nil,
      readRows_cons hpushed (readRows_cons halone readRows_nil), interchangeable_of_items rfl⟩

/-- A number of lines with the same operation on each of them. -/
theorem readRows_repeated (hname : Token.kind? name = some (.operation op))
    (harity : op.arity = 0) {rows : List (Nat × String)} (h : ∀ row ∈ rows, lexemes row.2 = [name]) :
    ∃ lines, readRows rows = .ok lines
      ∧ items lines = List.replicate rows.length (.code ⟨op, none⟩) := by
  induction rows with
  | nil => exact ⟨[], rfl, rfl⟩
  | cons row rows ih =>
    obtain ⟨lines, hlines, hitems⟩ := ih fun other hother => h other (List.mem_cons_of_mem row hother)
    have hread := ofLexemes_alone hname harity
    rw [← h row List.mem_cons_self] at hread
    refine ⟨_, readRows_cons hread hlines, ?_⟩
    rw [List.length_cons, List.replicate_succ, ← hitems]
    rfl

/-- A count can be written out. -/
theorem equivalent_count {number : Nat} {line : Line}
    (hname : Pseudo.ofKeyword? name = some .spr)
    (hraw : lexemes raw = [name, x]) (hline : Line.parse number raw = .ok line) :
    ∃ count, Literal.value? x = some count ∧
      ∀ stepName rows,
        Token.kind? stepName = some (.operation (if count.toInt < 0 then .spd else .spi)) →
        rows.length = count.toInt.natAbs → (∀ row ∈ rows, lexemes row.2 = [stepName]) →
        Equivalent [(number, raw)] rows := by
  obtain ⟨statement, hread, rfl⟩ := Line.parse_eq_ok_iff.mp hline
  rw [hraw] at hread
  obtain ⟨count, hcount, hstatement⟩ := exists_count hname hread
  refine ⟨count, hcount, ?_⟩
  intro stepName rows hstep hlength hrows
  have harity : (if count.toInt < 0 then Op.spd else Op.spi).arity = 0 := by
    split <;> rfl
  obtain ⟨lines, hlines, hitems⟩ := readRows_repeated hstep harity hrows
  rw [← hraw] at hread
  refine .inl ⟨_, _, readRows_cons hread readRows_nil, hlines, ?_⟩
  apply interchangeable_of_items
  rw [hitems, hlength, hstatement]
  simp [items, Line.items, Pseudo.expand]

end Spelling

/-- **Only the row of items matters.** Two lists of lines without line numbers in their
operands that say the same labels and instructions in the same order give the same words,
the same labels and the same instruction table, or fail with the same problem. In
particular a blank line or a comment line can be left out, an operation with its
destination beside it can be written as two lines, the first of which pushes the
destination, and the pseudo-operation with a count as that many lines of one step each. -/
theorem items_determine_assembly :
    (∀ left right, Unnumbered left → Unnumbered right → items left = items right →
      AgreeUpToLines (ofLines left) (ofLines right))
    ∧ (∀ number raw, isVacant raw = true → Equivalent [(number, raw)] [])
    ∧ (∀ name pushName x op, Token.kind? name = some (.operation op) → op.takesTarget = true →
      Token.kind? pushName = some (.operation .push) →
      ∀ raw rawPush rawAlone, lexemes raw = [name, x] → lexemes rawPush = [pushName, x] →
        lexemes rawAlone = [name] → ∀ number first second,
          Equivalent [(number, raw)] [(first, rawPush), (second, rawAlone)])
    ∧ ∀ name x, Pseudo.ofKeyword? name = some .spr →
      ∀ number raw line, lexemes raw = [name, x] → Line.parse number raw = .ok line →
        ∃ count, Literal.value? x = some count ∧ ∀ stepName rows,
          Token.kind? stepName = some (.operation (if count.toInt < 0 then .spd else .spi)) →
          rows.length = count.toInt.natAbs → (∀ row ∈ rows, lexemes row.2 = [stepName]) →
            Equivalent [(number, raw)] rows := by
  refine ⟨?_, ?_, ?_, ?_⟩
  · intro left right hleft _ hitems
    exact agreeUpToLines_of_items hleft hitems
  · intro number raw hvacant
    exact equivalent_vacant hvacant number
  · intro name pushName x op hname htarget hpush raw rawPush rawAlone hraw hrawPush hrawAlone
    exact equivalent_target hname htarget hpush hraw hrawPush hrawAlone
  · intro name x hname number raw line hraw hline
    exact equivalent_count hname hraw hline

/-- A loop with its destination beside the jump, and with a comment and the destination on
a line of its own; two steps down. -/
theorem items_determine_assembly_loop :
    let label : Line := ⟨1, "loop:", some (.label "loop")⟩
    let beside : Line := ⟨2, "jmp @loop",
      some (.code [⟨.push, some (.reference (.label "loop"))⟩, ⟨.jmp, none⟩])⟩
    let comment : Line := ⟨2, " ; again", none⟩
    let push : Line := ⟨3, "push @loop", some (.code [⟨.push, some (.reference (.label "loop"))⟩])⟩
    let alone : Line := ⟨4, "jmp", some (.code [⟨.jmp, none⟩])⟩
    Unnumbered [label, beside] ∧ items [label, beside] = items [label, comment, push, alone]
    ∧ AgreeUpToLines (ofLines [label, beside]) (ofLines [label, comment, push, alone])
    ∧ Equivalent [(2, " ; again")] []
    ∧ Equivalent [(2, "jmp @loop")] [(3, "push @loop"), (4, "jmp")]
    ∧ Equivalent [(5, "spr -2")] [(5, "spd"), (6, "spd")] := by
  intro label beside comment push alone
  have hunnumbered : Unnumbered [label, beside] := by
    simp [Unnumbered, codesOf, Line.codes, Code.Unnumbered, label, beside]
  obtain ⟨hregroup, hblank, htarget, hcount⟩ := items_determine_assembly
  refine ⟨hunnumbered, rfl, hregroup _ _ hunnumbered ?_ rfl, ?_, ?_, ?_⟩
  · exact unnumbered_of_items hunnumbered rfl
  · apply hblank
    decide
  · apply htarget "jmp" "push" "@loop" .jmp (by decide +kernel) rfl (by decide +kernel)
    · decide +kernel
    · decide +kernel
    · decide +kernel
  · have hline : Line.parse 5 "spr -2"
        = .ok ⟨5, "spr -2", some (.code [⟨.spd, none⟩, ⟨.spd, none⟩])⟩ := by
      decide +kernel
    obtain ⟨count, hvalue, hwritten⟩ := hcount "spr" "-2" (by decide) 5 "spr -2" _
      (by decide +kernel) hline
    obtain rfl : (-2 : Int64) = count := by
      have hliteral : Literal.value? "-2" = some (-2) := by decide
      rw [hliteral, Option.some.injEq] at hvalue
      exact hvalue
    apply hwritten "spd"
    · decide +kernel
    · decide
    · decide +kernel

end StackMachine.Assembly
