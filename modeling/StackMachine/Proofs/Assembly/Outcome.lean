/-
When an assembly fails, and with what.

There are three ways for a source to be wrong: a line that cannot be read, a
line that cannot stand where it stands, and a reference that means nothing. Each
stage of the assembly is over before the next one starts, so the first kind wins
over the second and the second over the third wherever they are, and within a
kind the first place wins. `assemble_outcome` says this for every source; what it
means for one place to be wrong is `UnreadableAt`, `MisplacedAt` and
`DanglingAt`, none of which mentions a table.
-/
import StackMachine.Proofs.Assembly.Reference

set_option autoImplicit false

namespace StackMachine.Assembly

open Source

/-! ## References that mean nothing -/

/-- Instruction number `k` makes a reference that has no operand word; the
problem is reported at its line. -/
def DanglingAt (lines : List Line) (k : Nat) (e : Error) : Prop :=
  ∃ (number : Nat) (code : Code) (target : Reference) (problem : Problem),
    (numberedCodes lines)[k]? = some (number, code)
      ∧ code.operand = some (.reference target)
      ∧ Unresolvable lines k target problem
      ∧ e = problem.at number

/-- An instruction does not resolve exactly if it makes a reference that does
not. -/
theorem bareOf_eq_error_iff {tables : Tables} {number index : Nat} {code : Code} {e : Error} :
    bareOf tables ((number, code), index) = .error e
      ↔ ∃ target problem, code.operand = some (.reference target)
        ∧ tables.resolve index target = .error problem ∧ e = problem.at number := by
  rw [bareOf, map_eq_error_iff]
  obtain ⟨op, operand⟩ := code
  rcases operand with _ | ⟨w⟩ | ⟨target⟩
  · simp [operandWord, Except.mapError]
  · simp [operandWord, Except.mapError]
  · simp only [operandWord]
    rcases hresolve : tables.resolve index target with problem | w
    · simp only [Except.map, Except.mapError, Except.error.injEq, Option.some.injEq,
        Operand.reference.injEq]
      constructor
      · intro heq
        exact ⟨target, problem, rfl, hresolve, heq.symm⟩
      · rintro ⟨target', problem', rfl, hresolve', rfl⟩
        rw [hresolve, Except.error.injEq] at hresolve'
        rw [hresolve']
    · simp [Except.map, Except.mapError, hresolve]

/-- Resolution fails with the problem of the first reference that means
nothing, in the order of the instructions. -/
theorem resolve_emit_eq_error_iff {tables : Tables} {lines : List Line}
    (h : tables.Describes lines) (hnumbers : (lines.map Line.number).Nodup) (e : Error) :
    resolve tables (emit lines) = .error e ↔ First (DanglingAt lines) e := by
  have hlt : ∀ {k : Nat} {entry : Nat × Code}, (numberedCodes lines)[k]? = some entry →
      k < (codesOf lines).length := by
    intro k entry hk
    rw [← length_numberedCodes]
    exact (List.getElem?_eq_some_iff.mp hk).1
  rw [resolve_emit, map_eq_error_iff, mapM_eq_error_iff]
  apply first_congr
  intro k e'
  constructor
  · rintro ⟨⟨⟨number, code⟩, index⟩, hentry, herror⟩
    -- an instruction is walked with its own position
    rw [List.getElem?_zipIdx, Nat.zero_add] at hentry
    obtain ⟨entry, hk, heq⟩ := Option.map_eq_some_iff.mp hentry
    rw [Prod.mk.injEq] at heq
    obtain ⟨rfl, rfl⟩ := heq
    obtain ⟨target, problem, htarget, hresolve, rfl⟩ := bareOf_eq_error_iff.mp herror
    exact ⟨number, code, target, problem, hk, htarget,
      (resolve_eq_error_iff h hnumbers (hlt hk)).mp hresolve, rfl⟩
  · rintro ⟨number, code, target, problem, hk, htarget, hreason, rfl⟩
    refine ⟨((number, code), k), by simp [hk], bareOf_eq_error_iff.mpr ?_⟩
    exact ⟨target, problem, htarget, (resolve_eq_error_iff h hnumbers (hlt hk)).mpr hreason, rfl⟩

/-! ## Stage by stage -/

theorem assemble_of_unreadable {source : String} {e : Error}
    (h : First (UnreadableAt source) e) : assemble source = .error e := by
  rw [assemble, (readLines_eq_error_iff source e).mpr h]
  rfl

theorem assemble_of_reads {source : String} {lines : List Line} (h : Reads source lines) :
    assemble source = ofLines lines := by
  rw [assemble, (readLines_eq_ok_iff source lines).mpr h]
  rfl

theorem exists_reads {source : String} (h : ¬ ∃ i e, UnreadableAt source i e) :
    ∃ lines, Reads source lines := by
  have herror : ∀ e, readLines source = .error e → First (UnreadableAt source) e :=
    fun e => (readLines_eq_error_iff source e).mp
  obtain ⟨lines, hread⟩ := exists_ok_of_not_fails herror h
  exact ⟨lines, (readLines_eq_ok_iff source lines).mp hread⟩

theorem ofLines_of_misplaced {lines : List Line} {e : Error}
    (h : First (MisplacedAt lines) e) : ofLines lines = .error e := by
  rw [ofLines, (collect_eq_error_iff lines e).mpr h]
  rfl

theorem exists_collect {lines : List Line} (h : ¬ ∃ i e, MisplacedAt lines i e) :
    ∃ tables, Tables.collect lines = .ok tables :=
  exists_ok_of_not_fails (fun e => (collect_eq_error_iff lines e).mp) h

/-- Lines that define no label twice and fit the address space have tables. -/
theorem exists_collect_of_distinct {lines : List Line} (hdistinct : (labelsOf lines).Nodup)
    (hfit : extent lines ≤ programCapacity) : ∃ tables, Tables.collect lines = .ok tables := by
  apply exists_collect
  rintro ⟨i, e, line, hline, hmisplaced⟩
  have hupto : lines.take (i + 1) = lines.take i ++ [line] := by
    rw [List.take_add_one, hline, Option.toList_some]
  rcases hmisplaced with @⟨name, hlabel, hdefined⟩ | ⟨-, hlong⟩
  · -- the label stands before the line and on it
    have hnodup : (labelsOf (lines.take (i + 1))).Nodup :=
      hdistinct.sublist ((List.take_sublist (i + 1) lines).filterMap Line.label?)
    rw [hupto, labelsOf_append, List.nodup_append] at hnodup
    exact hnodup.2.2 name hdefined name (by simp [labelsOf, hlabel]) rfl
  · have hle := extent_take_le lines (i + 1)
    rw [hupto] at hle
    omega

/-- With tables, everything depends on the references. -/
theorem ofLines_of_collect {lines : List Line} {tables : Tables}
    (h : Tables.collect lines = .ok tables) :
    ofLines lines
      = (resolve tables (emit lines)).map fun words => ⟨lines, tables, words.toArray⟩ := by
  rw [ofLines, h]
  change (resolve tables (emit lines) >>= fun words => _) = _
  rcases resolve tables (emit lines) with e | words
  · rfl
  · rfl

/-- Lines are assembled exactly if they have tables and all their operands have words. -/
theorem ofLines_eq_ok_iff {lines : List Line} {assembly : Assembly} :
    ofLines lines = .ok assembly
      ↔ assembly.lines = lines ∧ Tables.collect lines = .ok assembly.tables
        ∧ ∃ bares, Resolves assembly.tables (codesOf lines) bares
          ∧ assembly.words = (Bare.encode bares).toArray := by
  constructor
  · intro h
    obtain ⟨tables, hcollect, -⟩ := bind_eq_ok_iff.mp h
    rw [ofLines_of_collect hcollect, map_eq_ok_iff] at h
    obtain ⟨words, hwords, rfl⟩ := h
    obtain ⟨bares, hbares, rfl⟩ := (resolve_emit_eq_ok_iff tables lines words).mp hwords
    exact ⟨rfl, hcollect, bares, hbares, rfl⟩
  · rintro ⟨hlines, hcollect, bares, hbares, hwords⟩
    obtain ⟨lines', tables, words⟩ := assembly
    obtain rfl : lines' = lines := hlines
    obtain rfl : words = (Bare.encode bares).toArray := hwords
    rw [ofLines_of_collect hcollect, map_eq_ok_iff]
    exact ⟨_, (resolve_emit_eq_ok_iff tables lines' _).mpr ⟨bares, hbares, rfl⟩, rfl⟩

theorem ofLines_of_dangling {lines : List Line} {tables : Tables} {e : Error}
    (hcollect : Tables.collect lines = .ok tables) (hnumbers : (lines.map Line.number).Nodup)
    (h : First (DanglingAt lines) e) : ofLines lines = .error e := by
  rw [ofLines_of_collect hcollect, map_eq_error_iff]
  exact (resolve_emit_eq_error_iff (describes_of_collect hcollect) hnumbers e).mpr h

/-- Lines with tables and with nothing but meaningful references are assembled. -/
theorem exists_ofLines {lines : List Line} {tables : Tables}
    (hcollect : Tables.collect lines = .ok tables) (hnumbers : (lines.map Line.number).Nodup)
    (h : ¬ ∃ k e, DanglingAt lines k e) :
    ∃ assembly, ofLines lines = .ok assembly ∧ assembly.lines = lines := by
  have herror : ∀ e, resolve tables (emit lines) = .error e → First (DanglingAt lines) e :=
    fun e => (resolve_emit_eq_error_iff (describes_of_collect hcollect) hnumbers e).mp
  obtain ⟨words, hwords⟩ := exists_ok_of_not_fails herror h
  refine ⟨⟨lines, tables, words.toArray⟩, ?_, rfl⟩
  rw [ofLines_of_collect hcollect, hwords]
  rfl

/-! ## Where errors are reported -/

section Place

variable {source : String} {e : Error}

theorem line_of_unreadable {i : Nat} (h : UnreadableAt source i e) :
    1 ≤ e.line ∧ e.line ≤ (Text.lines source).length := by
  obtain ⟨raw, hraw, hparse⟩ := h
  have hlt := (List.getElem?_eq_some_iff.mp hraw).1
  rw [Line.line_of_parse_error hparse]
  omega

theorem Reads.number_le {lines : List Line} (h : Reads source lines) {line : Line}
    (hline : line ∈ lines) : 1 ≤ line.number ∧ line.number ≤ (Text.lines source).length := by
  obtain ⟨i, hi⟩ := List.mem_iff_getElem?.mp hline
  have hlt := (List.getElem?_eq_some_iff.mp hi).1
  rw [h.number_eq hi, ← h.length_eq]
  omega

theorem line_of_misplaced {lines : List Line} (hreads : Reads source lines) {i : Nat}
    (h : MisplacedAt lines i e) : 1 ≤ e.line ∧ e.line ≤ (Text.lines source).length := by
  obtain ⟨line, hi, hmis⟩ := h
  have hline : e.line = line.number := by
    rcases hmis with ⟨-, -⟩ | ⟨-, -⟩ <;> rfl
  rw [hline]
  exact hreads.number_le (List.mem_of_getElem? hi)

theorem line_of_dangling {lines : List Line} (hreads : Reads source lines) {k : Nat}
    (h : DanglingAt lines k e) : 1 ≤ e.line ∧ e.line ≤ (Text.lines source).length := by
  obtain ⟨number, code, target, problem, hk, -, -, rfl⟩ := h
  obtain ⟨line, hline, rfl, -⟩ := exists_line_of_numberedCodes hk
  exact hreads.number_le hline

/-- Every error is reported at a line of the source. -/
theorem line_of_assemble_error (h : assemble source = .error e) :
    1 ≤ e.line ∧ e.line ≤ (Text.lines source).length := by
  rcases bind_eq_error_iff.mp h with hread | ⟨lines, hread, hlines⟩
  · obtain ⟨i, hi, -⟩ := (readLines_eq_error_iff source e).mp hread
    exact line_of_unreadable hi
  · have hreads := (readLines_eq_ok_iff source lines).mp hread
    rcases bind_eq_error_iff.mp hlines with hcollect | ⟨tables, hcollect, -⟩
    · obtain ⟨i, hi, -⟩ := (collect_eq_error_iff lines e).mp hcollect
      exact line_of_misplaced hreads hi
    · rw [ofLines_of_collect hcollect, map_eq_error_iff,
        resolve_emit_eq_error_iff (describes_of_collect hcollect) hreads.numbers_nodup] at hlines
      obtain ⟨k, hk, -⟩ := hlines
      exact line_of_dangling hreads hk

end Place

/-! ## The outcome -/

/-- **Outcome of an assembly.** If some line cannot be read, the answer is the
error of the first such line, and there is only one to choose. Otherwise, if some line cannot stand where it
stands, because an earlier line defines its label or because the program is too
long from there on, the answer is what is wrong with the first such line.
Otherwise, if some reference means nothing, the answer is the problem of the
first one in the order of the instructions, at the line that makes it. Otherwise
the assembly succeeds. Every error is reported at a line of the source. -/
theorem assemble_outcome (source : String) :
    ((∃ i e, UnreadableAt source i e) →
      ∃ e, assemble source = .error e ∧ ∀ e', First (UnreadableAt source) e' ↔ e' = e)
    ∧ ((¬ ∃ i e, UnreadableAt source i e) →
      ∃ lines, Reads source lines
        ∧ ((∃ i e, MisplacedAt lines i e) →
          ∃ e, assemble source = .error e ∧ ∀ e', First (MisplacedAt lines) e' ↔ e' = e)
        ∧ ((¬ ∃ i e, MisplacedAt lines i e) →
          ((∃ k e, DanglingAt lines k e) →
            ∃ e, assemble source = .error e ∧ ∀ e', First (DanglingAt lines) e' ↔ e' = e)
          ∧ ((¬ ∃ k e, DanglingAt lines k e) →
            ∃ assembly, assemble source = .ok assembly ∧ assembly.lines = lines)))
    ∧ ∀ e, assemble source = .error e → 1 ≤ e.line ∧ e.line ≤ (Text.lines source).length := by
  refine ⟨?_, ?_, fun e he => line_of_assemble_error he⟩
  · intro hread
    exact exists_error_of_first hread fun e hfirst => assemble_of_unreadable hfirst
  · intro hread
    obtain ⟨lines, hlines⟩ := exists_reads hread
    rw [assemble_of_reads hlines]
    refine ⟨lines, hlines, ?_, ?_⟩
    · intro hplace
      exact exists_error_of_first hplace fun e hfirst => ofLines_of_misplaced hfirst
    · intro hplace
      obtain ⟨tables, htables⟩ := exists_collect hplace
      refine ⟨?_, exists_ofLines htables hlines.numbers_nodup⟩
      intro hdangling
      exact exists_error_of_first hdangling fun e hfirst =>
        ofLines_of_dangling htables hlines.numbers_nodup hfirst

end StackMachine.Assembly
