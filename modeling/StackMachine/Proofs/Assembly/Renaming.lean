/-
Names of labels do not matter.

Assembling compares names and does nothing else with them: the first pass asks whether a
name is already bound, and resolution asks what it is bound to. So a renaming that keeps
the names of a source apart cannot be told from the result. It is enough that it keeps
those names apart that the source has, in definitions or in references (`Mentions`);
what it does to other names is never asked, and two of them may fall together.

The names also stand in two of the problems, and there they come out renamed. Everything
else, the line of an error included, is the same, because both passes go through the
same steps and only carry other names along.
-/
import StackMachine.Proofs.Assembly.Outcome
import Mathlib.Data.List.Find
import Mathlib.Data.Set.Function

set_option autoImplicit false

namespace StackMachine.Source

variable (ρ : String → String)

/-! ## Renaming -/

/-- Only a label has a name. -/
def Reference.rename : Reference → Reference
  | .label name => .label (ρ name)
  | .relative offset => .relative offset
  | .line number => .line number

def Operand.rename : Operand → Operand
  | .literal w => .literal w
  | .reference target => .reference (target.rename ρ)

def Code.rename (code : Code) : Code :=
  ⟨code.op, code.operand.map (Operand.rename ρ)⟩

def Statement.rename : Statement → Statement
  | .label name => .label (ρ name)
  | .code codes => .code (codes.map (Code.rename ρ))

/-- The line with the labels renamed that it defines and refers to. Its text is not read
again and stays. -/
def Line.rename (line : Line) : Line :=
  { line with statement := line.statement.map (Statement.rename ρ) }

/-- Two problems name a label; the others are about numbers or about texts that assembling
never sees. -/
def Problem.rename : Problem → Problem
  | .redefinedLabel name => .redefinedLabel (ρ name)
  | .undefinedLabel name => .undefinedLabel (ρ name)
  | other => other

def Error.rename (e : Error) : Error :=
  ⟨e.line, e.problem.rename ρ⟩

/-- The line defines a label of this name or refers to one. -/
def Line.Mentions (line : Line) (name : String) : Prop :=
  line.label? = some name ∨ ∃ code ∈ line.codes, code.operand = some (.reference (.label name))

theorem Line.codes_rename (line : Line) :
    (line.rename ρ).codes = line.codes.map (Code.rename ρ) := by
  unfold codes rename
  rcases line.statement with _ | name | codes
  · rfl
  · rfl
  · rfl

end StackMachine.Source

namespace StackMachine.Assembly

open Source

/-- The names that lines have, in definitions and in references. -/
def Mentions (lines : List Line) (name : String) : Prop :=
  ∃ line ∈ lines, line.Mentions name

variable (ρ : String → String)

/-- The same tables with other names for the labels, in the same order. -/
def Tables.rename (tables : Tables) : Tables :=
  { tables with labels := tables.labels.map fun entry => (ρ entry.1, entry.2) }

def Slot.rename : Slot → Slot
  | .word w => .word w
  | .pending line index target => .pending line index (target.rename ρ)

/-! ## The first pass -/

/-- Adding instructions neither reads the labels nor what the instructions refer to. -/
theorem Tables.addCodes_rename (tables : Tables) (number : Nat) (codes : List Code) :
    (tables.rename ρ).addCodes number (codes.map (Code.rename ρ))
      = (tables.addCodes number codes).rename ρ := by
  have hstarts : ∀ address, Code.starts address (codes.map (Code.rename ρ))
      = Code.starts address codes := by
    induction codes with
    | nil => intro address; rfl
    | cons code codes ih =>
      intro address
      rw [List.map_cons, Code.starts, Code.starts, ih]
      rfl
  have hsize : Code.totalSize (codes.map (Code.rename ρ)) = Code.totalSize codes := by
    rw [Code.totalSize_eq_sum, Code.totalSize_eq_sum, List.map_map]
    rfl
  have hempty : codes.map (Code.rename ρ) = [] ↔ codes = [] := List.map_eq_nil_iff
  rw [addCodes_eq, addCodes_eq, hstarts, hsize]
  simp only [Tables.rename, hempty]

variable {ρ} {tables : Tables} {names : Set String}

/-- A name is bound after the renaming to what it was bound to before. This is the one
place where it matters that names are kept apart. -/
theorem Tables.label?_rename (hinj : Set.InjOn ρ names)
    (hlabels : ∀ entry ∈ tables.labels.toList, entry.1 ∈ names) {name : String}
    (hname : name ∈ names) : (tables.rename ρ).label? (ρ name) = tables.label? name := by
  have hfound : tables.labels.toList.find? ((fun entry => entry.1 == ρ name)
        ∘ fun entry : String × Nat => (ρ entry.1, entry.2))
      = tables.labels.toList.find? fun entry => entry.1 == name := by
    apply List.find?_congr
    intro entry hentry
    by_cases heq : entry.1 = name
    · simp [heq]
    · have hne : ρ entry.1 ≠ ρ name := fun hsame => heq (hinj (hlabels entry hentry) hname hsame)
      simp [heq, hne]
  unfold Tables.label? Tables.rename
  rw [← Array.find?_toList, ← Array.find?_toList, Array.toList_map, List.find?_map, hfound,
    Option.map_map]
  rfl

/-- One line more, with its names changed. -/
theorem Tables.addLine_rename (hinj : Set.InjOn ρ names)
    (hlabels : ∀ entry ∈ tables.labels.toList, entry.1 ∈ names) {line : Line}
    (hline : ∀ name, line.label? = some name → name ∈ names) :
    translated (Tables.rename ρ) (Error.rename ρ) (tables.addLine line)
      = (tables.rename ρ).addLine (line.rename ρ) := by
  unfold Tables.addLine Line.rename
  rcases hstatement : line.statement with _ | name | codes
  · rfl
  · have hname := hline name (Line.label?_eq_some_iff.mpr hstatement)
    have hsame := Tables.label?_rename hinj hlabels hname
    simp only [Option.map_some, Statement.rename, hsame]
    by_cases hbound : (tables.label? name).isSome = true
    · rw [if_pos hbound, if_pos hbound]
      rfl
    · rw [if_neg hbound, if_neg hbound]
      -- the new entry comes last under either name
      simp [translated, Tables.rename]
  · simp only [Option.map_some, Statement.rename, Tables.addCodes_rename]
    by_cases hfit : (tables.addCodes line.number codes).size ≤ programCapacity
    · rw [if_pos hfit]
      exact (if_pos hfit).symm
    · rw [if_neg hfit]
      exact (if_neg hfit).symm

theorem mentions_of_collect {lines : List Line} (h : Tables.collect lines = .ok tables) :
    ∀ entry ∈ tables.labels.toList, Mentions lines entry.1 := by
  intro entry hentry
  rw [(describes_of_collect h).labels_eq] at hentry
  obtain ⟨i, line, hi, hlabel, -⟩ := mem_labelEntries_iff.mp hentry
  exact ⟨line, List.mem_of_getElem? hi, .inl hlabel⟩

/-- **The first pass commutes with renaming.** -/
theorem collect_rename {lines : List Line} (hinj : Set.InjOn ρ names)
    (hnames : ∀ name, Mentions lines name → name ∈ names) :
    translated (Tables.rename ρ) (Error.rename ρ) (Tables.collect lines)
      = Tables.collect (lines.map (Line.rename ρ)) := by
  induction lines using List.reverseRecOn with
  | nil =>
    show Except.ok (Tables.rename ρ {}) = .ok {}
    simp [Tables.rename]
  | append_singleton lines line ih =>
    have hbefore : ∀ name, Mentions lines name → name ∈ names := by
      rintro name ⟨other, hother, hmentions⟩
      exact hnames name ⟨other, List.mem_append_left [line] hother, hmentions⟩
    have hlast : ∀ name, line.label? = some name → name ∈ names := by
      intro name hlabel
      exact hnames name ⟨line, by simp, .inl hlabel⟩
    rw [Tables.collect, Tables.collect, List.map_append, List.foldlM_append, List.foldlM_append,
      ← Tables.collect, ← Tables.collect, ← ih hbefore]
    apply translated_bind
    intro tables htables
    -- the tables so far hold no names but those of the lines so far
    have hlabels : ∀ entry ∈ tables.labels.toList, entry.1 ∈ names :=
      fun entry hentry => hbefore entry.1 (mentions_of_collect htables entry hentry)
    simp only [List.map_cons, List.map_nil, List.foldlM_cons, List.foldlM_nil, bind_pure]
    exact Tables.addLine_rename hinj hlabels hlast

/-! ## Resolution -/

theorem Slot.ofCode_rename (line index : Nat) (code : Code) :
    Slot.ofCode line index (code.rename ρ) = (Slot.ofCode line index code).map (Slot.rename ρ) := by
  obtain ⟨op, operand⟩ := code
  rcases operand with _ | ⟨w⟩ | ⟨target⟩
  · rfl
  · rfl
  · rfl

/-- Emission looks at operations and at whether there is an operand, not at names. -/
theorem emit_rename (lines : List Line) :
    emit (lines.map (Line.rename ρ)) = (emit lines).map (Slot.rename ρ) := by
  have hnumbered : numberedCodes (lines.map (Line.rename ρ))
      = (numberedCodes lines).map fun entry => (entry.1, entry.2.rename ρ) := by
    rw [numberedCodes, numberedCodes, List.flatMap_map, List.map_flatMap]
    apply List.flatMap_congr
    intro line _
    rw [Line.codes_rename, List.map_map, List.map_map]
    rfl
  rw [emit, emit, hnumbered, List.zipIdx_map, List.flatMap_map, List.map_flatMap]
  apply List.flatMap_congr
  intro entry _
  exact Slot.ofCode_rename entry.1.1 entry.2 entry.1.2

/-- A label that a slot waits for is one that the lines refer to. -/
theorem mentions_of_mem_emit {lines : List Line} {line index : Nat} {name : String}
    (h : Slot.pending line index (.label name) ∈ emit lines) : Mentions lines name := by
  obtain ⟨⟨⟨number, code⟩, k⟩, hentry, hslot⟩ := List.mem_flatMap.mp h
  obtain ⟨origin, horigin, hcode⟩ :=
    List.mem_flatMap.mp (List.fst_mem_of_mem_zipIdx hentry)
  obtain ⟨code', hmem, heq⟩ := List.mem_map.mp hcode
  obtain ⟨-, rfl⟩ := Prod.mk.inj heq
  refine ⟨origin, horigin, .inr ⟨code', hmem, ?_⟩⟩
  obtain ⟨op, operand⟩ := code'
  rcases operand with _ | ⟨w⟩ | ⟨target⟩
  · simp [Slot.ofCode] at hslot
  · simp [Slot.ofCode] at hslot
  · simp only [Slot.ofCode, List.mem_cons, List.not_mem_nil, or_false, reduceCtorEq, false_or,
      Slot.pending.injEq] at hslot
    rw [hslot.2.2]

/-- A renamed reference has the address that it had, or is at fault in the same way. -/
theorem Tables.address_rename (hinj : Set.InjOn ρ names)
    (hlabels : ∀ entry ∈ tables.labels.toList, entry.1 ∈ names) {target : Reference}
    (htarget : ∀ name, target = .label name → name ∈ names) (index : Nat) :
    translated id (Problem.rename ρ) (tables.address index target)
      = (tables.rename ρ).address index (target.rename ρ) := by
  rcases target with name | offset | number
  · have hsame := Tables.label?_rename hinj hlabels (htarget name rfl)
    simp only [Reference.rename, Tables.address, hsame]
    rcases tables.label? name with _ | address
    · rfl
    · rfl
  · have hsame : (tables.rename ρ).instr? index offset = tables.instr? index offset := rfl
    simp only [Reference.rename, Tables.address, hsame]
    rcases tables.instr? index offset with _ | address
    · rfl
    · rfl
  · have hsame : (tables.rename ρ).line? number = tables.line? number := rfl
    simp only [Reference.rename, Tables.address, hsame]
    rcases tables.line? number with _ | address
    · rfl
    · rfl

theorem Slot.resolve_rename (hinj : Set.InjOn ρ names)
    (hlabels : ∀ entry ∈ tables.labels.toList, entry.1 ∈ names) {slot : Slot}
    (hslot : ∀ line index name, slot = .pending line index (.label name) → name ∈ names) :
    translated id (Error.rename ρ) (slot.resolve tables)
      = (slot.rename ρ).resolve (tables.rename ρ) := by
  rcases slot with w | ⟨line, index, target⟩
  · rfl
  · have htarget : ∀ name, target = .label name → name ∈ names := by
      intro name hname
      exact hslot line index name (by rw [hname])
    have haddress := Tables.address_rename hinj hlabels htarget index
    have hresolve : translated id (Problem.rename ρ) (tables.resolve index target)
        = (tables.rename ρ).resolve index (target.rename ρ) := by
      rw [Tables.resolve, Tables.resolve, ← haddress]
      apply translated_bind
      intro address _
      -- an address that is no word is reported without a name
      simp only [id_eq]
      rcases Word.ofNat? address with _ | w
      · rfl
      · rfl
    rw [Slot.rename, Slot.resolve, Slot.resolve, ← hresolve]
    rcases tables.resolve index target with problem | w
    · rfl
    · rfl

/-- **Resolution commutes with renaming.** -/
theorem resolve_rename {lines : List Line} (hinj : Set.InjOn ρ names)
    (hnames : ∀ name, Mentions lines name → name ∈ names)
    (hlabels : ∀ entry ∈ tables.labels.toList, entry.1 ∈ names) :
    translated id (Error.rename ρ) (resolve tables (emit lines))
      = resolve (tables.rename ρ) (emit (lines.map (Line.rename ρ))) := by
  rw [emit_rename]
  apply translated_mapM
  intro slot hslot
  apply Slot.resolve_rename hinj hlabels
  intro line index name heq
  subst heq
  exact hnames name (mentions_of_mem_emit hslot)

/-! ## Assembling -/

/-- The renamed lines, the tables with the labels renamed, and the same words. -/
def rename (ρ : String → String) (assembly : Assembly) : Assembly where
  lines := assembly.lines.map (Line.rename ρ)
  tables := assembly.tables.rename ρ
  words := assembly.words

theorem translated_ofLines {lines : List Line}
    (hinj : Set.InjOn ρ {name | Mentions lines name}) :
    translated (rename ρ) (Error.rename ρ) (ofLines lines)
      = ofLines (lines.map (Line.rename ρ)) := by
  have hnames : ∀ name, Mentions lines name → name ∈ {name | Mentions lines name} :=
    fun _ hmentions => hmentions
  rw [ofLines, ofLines, ← collect_rename hinj hnames]
  apply translated_bind
  intro tables htables
  rw [← resolve_rename hinj hnames (mentions_of_collect htables)]
  apply translated_bind
  intro words _
  rfl

/-- **Renaming labels is invisible.** Take a renaming that gives different names to
different labels of these lines, defined or referred to. If the lines are assembled, so are
the renamed lines, to the same words and with the same line table, instruction table and
size, and the label table has the same addresses in the same order under the new names. If
they are not, the renamed lines fail at the same line and with the same problem, in which
only the name of a label is changed. -/
theorem ofLines_rename {lines : List Line}
    (hinj : Set.InjOn ρ {name | Mentions lines name}) :
    (∀ assembly, ofLines lines = .ok assembly →
      ofLines (lines.map (Line.rename ρ)) = .ok
        { lines := lines.map (Line.rename ρ)
          tables :=
            { labels := assembly.tables.labels.map fun entry => (ρ entry.1, entry.2)
              lines := assembly.tables.lines
              instrs := assembly.tables.instrs
              size := assembly.tables.size }
          words := assembly.words })
    ∧ ∀ e, ofLines lines = .error e →
      ofLines (lines.map (Line.rename ρ)) = .error ⟨e.line, e.problem.rename ρ⟩ := by
  rw [← translated_ofLines hinj]
  constructor
  · intro assembly h
    -- an assembly keeps the lines that it is made from
    have hlines : assembly.lines = lines := (ofLines_eq_ok_iff.mp h).1
    rw [h, translated, rename, hlines]
    rfl
  · intro e h
    rw [h]
    rfl

/-- Two labels change their names. The renaming is not injective, but it keeps these two
apart; a third line that defines one of them again is reported under the new name. -/
theorem ofLines_rename_exchange :
    let exchange : String → String := fun name => if name = "a" then "b" else "a"
    let jump : Line := ⟨1, "jmp @b",
      some (.code [⟨.push, some (.reference (.label "b"))⟩, ⟨.jmp, none⟩])⟩
    let first : Line := ⟨2, "a:", some (.label "a")⟩
    let last : Line := ⟨3, "b:", some (.label "b")⟩
    let again : Line := ⟨4, "b:", some (.label "b")⟩
    let lines := [jump, first, last]
    Set.InjOn exchange {name | Mentions (lines ++ [again]) name}
    ∧ (∃ assembly renamed, ofLines lines = .ok assembly
      ∧ ofLines (lines.map (Line.rename exchange)) = .ok renamed
      ∧ renamed.words = assembly.words ∧ assembly.words = #[1, 3, 23]
      ∧ assembly.tables.labels = #[("a", 3), ("b", 3)]
      ∧ renamed.tables.labels = #[("b", 3), ("a", 3)])
    ∧ ofLines ((lines ++ [again]).map (Line.rename exchange))
      = .error ⟨4, .redefinedLabel "a"⟩ := by
  intro exchange jump first last again lines
  have hmentions : ∀ name, Mentions (lines ++ [again]) name → name = "a" ∨ name = "b" := by
    rintro name ⟨line, hline, hname⟩
    simp only [lines, List.cons_append, List.nil_append, List.mem_cons, List.not_mem_nil,
      or_false] at hline
    rcases hline with rfl | rfl | rfl | rfl
    · exact .inr (by simpa [Line.Mentions, Line.label?, Line.codes, jump, eq_comm] using hname)
    · exact .inl (by simpa [Line.Mentions, Line.label?, Line.codes, first, eq_comm] using hname)
    · exact .inr (by simpa [Line.Mentions, Line.label?, Line.codes, last, eq_comm] using hname)
    · exact .inr (by simpa [Line.Mentions, Line.label?, Line.codes, again, eq_comm] using hname)
  have hinj : Set.InjOn exchange {name | Mentions (lines ++ [again]) name} := by
    intro x hx y hy heq
    rcases hmentions x hx with rfl | rfl <;> rcases hmentions y hy with rfl | rfl
    · rfl
    · exact absurd heq (by decide)
    · exact absurd heq (by decide)
    · rfl
  have hinj' : Set.InjOn exchange {name | Mentions lines name} := by
    apply hinj.mono
    rintro name ⟨line, hline, hname⟩
    exact ⟨line, List.mem_append_left [again] hline, hname⟩
  refine ⟨hinj, ?_, ?_⟩
  · obtain ⟨assembly, h, hfacts⟩ : ∃ assembly, ofLines lines = .ok assembly
        ∧ (assembly.words, assembly.tables.labels) = (#[1, 3, 23], #[("a", 3), ("b", 3)]) :=
      eq_ok_of_toOption_map (by decide +kernel)
    obtain ⟨hwords, hlabels⟩ := Prod.mk.inj hfacts
    refine ⟨assembly, _, h, (ofLines_rename hinj').1 assembly h, rfl, hwords, hlabels, ?_⟩
    simp [hlabels, exchange]
  · have hfails : ofLines (lines ++ [again]) = .error ⟨4, .redefinedLabel "b"⟩ := rfl
    exact (ofLines_rename hinj).2 _ hfails

end StackMachine.Assembly
