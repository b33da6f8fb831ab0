/-
Lines by their lexemes.

What a line says depends on its lexemes alone (`parse_eq_ok_iff`). For the lines that
hold an instruction this file gives one equation for each way to write it: an operation
alone, an operation with its operand, an operation with its destination beside it, and a
pseudo-operation with its count.
-/
import StackMachine.Source.Line
import StackMachine.Proofs.FirstError
import StackMachine.Proofs.Arity
import StackMachine.Proofs.Source.Class

set_option autoImplicit false

namespace StackMachine.Source

/-! ## Lexemes -/

/-- The statement that a row of lexemes is read as. -/
def Statement.ofLexemes (words : List String) : Except Problem (Option Statement) :=
  Line.tokens words >>= Statement.ofTokens

/-- The operand that a lexeme is read as. -/
def Operand.ofLexeme (s : String) : Except Problem Operand :=
  Token.ofLexeme s >>= Operand.ofToken

/-- Reading a line is reading its lexemes. -/
theorem Line.parse_eq_ok_iff {number : Nat} {raw : String} {line : Line} :
    Line.parse number raw = .ok line
      ↔ ∃ statement, Statement.ofLexemes (lexemes raw) = .ok statement
        ∧ line = ⟨number, raw, statement⟩ := by
  rw [Line.parse, Statement.ofLexemes]
  rcases Line.tokens (lexemes raw) >>= Statement.ofTokens with problem | statement
  · simp
  · simp [eq_comm]

theorem Line.parse_eq_error_iff {number : Nat} {raw : String} {e : Error} :
    Line.parse number raw = .error e
      ↔ e.line = number ∧ Statement.ofLexemes (lexemes raw) = .error e.problem := by
  obtain ⟨line, problem⟩ := e
  rw [Line.parse, Statement.ofLexemes]
  rcases Line.tokens (lexemes raw) >>= Statement.ofTokens with found | statement
  · simp [Problem.at, eq_comm]
  · simp

variable {name x : String}

theorem Token.ofLexeme_of_kind {kind : Token.Kind} (h : Token.kind? name = some kind) :
    Token.ofLexeme name = .ok ⟨kind, name⟩ := by
  rw [Token.ofLexeme, h]

theorem Statement.ofLexemes_cons {kind : Token.Kind} (h : Token.kind? name = some kind)
    (args : List String) :
    Statement.ofLexemes (name :: args)
      = args.mapM Token.ofLexeme >>= fun tokens => Statement.ofTokens (⟨kind, name⟩ :: tokens) := by
  rw [Statement.ofLexemes, Line.tokens, Token.ofLexeme_of_kind h]
  show (args.mapM Token.ofLexeme >>= fun others => pure (_ :: others)) >>= Statement.ofTokens = _
  rw [bind_assoc]
  rfl

theorem mapM_ofLexeme_singleton (x : String) :
    [x].mapM Token.ofLexeme = (Token.ofLexeme x).map fun token => [token] := by
  simp only [List.mapM_cons, List.mapM_nil, pure_bind]
  exact bind_pure_eq_map _ _

/-! ## Operations -/

variable {op : Op}

/-- An operation in front makes the statement one of its instructions. -/
theorem Statement.ofTokens_operation (args : List Token) :
    Statement.ofTokens (⟨.operation op, name⟩ :: args)
      = (Code.ofOperation op name args).map fun codes => some (.code codes) :=
  bind_pure_eq_map _ _

theorem ofLexemes_alone (h : Token.kind? name = some (.operation op)) (harity : op.arity = 0) :
    Statement.ofLexemes [name] = .ok (some (.code [⟨op, none⟩])) := by
  rw [Statement.ofLexemes_cons h, List.mapM_nil, pure_bind, Statement.ofTokens_operation,
    Code.ofOperation, if_pos harity]
  rfl

/-- An operation with one lexeme behind it is a function of the operand that this lexeme
is read as. -/
theorem ofLexemes_argument (h : Token.kind? name = some (.operation op))
    {codes : Operand → List Code}
    (hcodes : ∀ arg, Code.ofOperation op name [arg] = (Operand.ofToken arg).map codes)
    (x : String) :
    Statement.ofLexemes [name, x]
      = (Operand.ofLexeme x).map fun operand => some (.code (codes operand)) := by
  have hstatement : ∀ arg, Statement.ofTokens [⟨.operation op, name⟩, arg]
      = (Operand.ofToken arg).map fun operand => some (.code (codes operand)) := by
    intro arg
    rw [Statement.ofTokens_operation, hcodes, map_map_eq]
  rw [Statement.ofLexemes_cons h, mapM_ofLexeme_singleton, map_bind_eq, Operand.ofLexeme,
    bind_map_eq]
  simp only [hstatement]

theorem ofLexemes_operand (h : Token.kind? name = some (.operation op)) (harity : op.arity = 1)
    (x : String) :
    Statement.ofLexemes [name, x]
      = (Operand.ofLexeme x).map fun operand => some (.code [⟨op, some operand⟩]) := by
  refine ofLexemes_argument h ?_ x
  intro arg
  rw [Code.ofOperation, if_pos harity, bind_pure_eq_map]

/-- A destination beside the operation is pushed first. -/
theorem ofLexemes_target (h : Token.kind? name = some (.operation op))
    (htarget : op.takesTarget = true) (x : String) :
    Statement.ofLexemes [name, x]
      = (Operand.ofLexeme x).map fun operand =>
        some (.code [⟨.push, some operand⟩, ⟨op, none⟩]) := by
  have harity : ¬ op.arity = 1 := by
    rw [arity_of_takesTarget htarget]
    decide
  refine ofLexemes_argument h ?_ x
  intro arg
  rw [Code.ofOperation, if_neg harity, if_pos htarget, bind_pure_eq_map]

/-! ## Pseudo-operations -/

variable {pseudo : Pseudo}

theorem kind?_of_pseudo (h : Pseudo.ofKeyword? name = some pseudo) :
    Token.kind? name = some .form ∧ isDefinition name = false := by
  have hform : isForm name = true := by simp [isForm, h]
  exact ⟨Token.kind?_eq_form_iff.mpr hform, (pseudo_only h).2.1⟩

/-- A pseudo-operation in front makes the statement one of its instructions. -/
theorem Statement.ofTokens_pseudo (h : Pseudo.ofKeyword? name = some pseudo) (args : List Token) :
    Statement.ofTokens (⟨.form, name⟩ :: args)
      = (Code.ofPseudo pseudo name args).map fun codes => some (.code codes) := by
  rw [Statement.ofTokens]
  simp only [(kind?_of_pseudo h).2, h, Bool.false_eq_true, if_false]
  exact bind_pure_eq_map _ _

theorem ofLexemes_pseudo (h : Pseudo.ofKeyword? name = some pseudo) :
    Statement.ofLexemes [name, x]
      = Token.ofLexeme x >>= fun arg =>
        (Code.ofPseudo pseudo name [arg]).map fun codes => some (.code codes) := by
  rw [Statement.ofLexemes_cons (kind?_of_pseudo h).1, mapM_ofLexeme_singleton, map_bind_eq]
  simp only [Statement.ofTokens_pseudo h]

/-- A pseudo-operation has a number as its argument, and the operations that it expands
into need no operands. -/
theorem exists_count {statement : Option Statement} (h : Pseudo.ofKeyword? name = some pseudo)
    (hread : Statement.ofLexemes [name, x] = .ok statement) :
    ∃ count, Literal.value? x = some count
      ∧ statement = some (.code ((pseudo.expand count.toInt).map fun op => ⟨op, none⟩)) := by
  rw [ofLexemes_pseudo h] at hread
  obtain ⟨arg, harg, hread⟩ := bind_eq_ok_iff.mp hread
  obtain ⟨codes, hcodes, rfl⟩ := map_eq_ok_iff.mp hread
  rw [Token.ofLexeme] at harg
  split at harg
  · rename_i kind hkind
    obtain rfl := Except.ok.inj harg
    rw [Code.ofPseudo] at hcodes
    split at hcodes
    · rename_i count hnumber
      obtain rfl : kind = .number count := hnumber
      split at hcodes
      · exact ⟨count, Token.kind?_eq_number_iff.mp hkind, by rw [← Except.ok.inj hcodes]⟩
      · simp at hcodes
    · simp at hcodes
  · simp at harg

end StackMachine.Source
