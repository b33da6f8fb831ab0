/-
The order in which the class of a lexeme is looked for.

A lexeme is shown to four recognisers, one after the other, and the first that knows it says
what it is. Since no lexeme is known to two of them, any order would do (`findSome?_perm`).

Keywords are compared in upper case, and there the recognisers rest on a table that is not
part of them. `capital` is that table as far as it matters; it leaves all characters outside
ASCII as they are, but for two. `Uppercase` says what has to be true of the whole table: the
capitals of other characters, which may be several (`ß` has `SS`), never make up a part of a
keyword. With any such table the same texts are keywords (`fold_eq_iff`).
-/
import StackMachine.Proofs.Source.Class
import Mathlib.Data.List.Basic

set_option autoImplicit false

namespace StackMachine

/-! ## Upper case -/

/-- The text is the keyword of an operation or of a pseudo-operation. -/
def IsKeyword (name : String) : Prop :=
  (∃ op : Op, op.name = name) ∨ ∃ pseudo : Pseudo, pseudo.name = name

/-- The characters that may be spelled in a keyword: those of ASCII, the long s and the
dotless i. -/
def Folds (c : Char) : Prop :=
  c.toNat < 128 ∨ c = 'ſ' ∨ c = 'ı'

instance (c : Char) : Decidable (Folds c) :=
  inferInstanceAs (Decidable (_ ∨ _))

/-- A table of capitals as keywords may be compared with. -/
structure Uppercase where
  capitals : Char → List Char
  folding : ∀ c, Folds c → capitals c = [capital c]
  /-- The capitals of any other character are no part of a keyword. -/
  foreign : ∀ c, ¬ Folds c → ∀ name, IsKeyword name → ¬ capitals c <:+: name.toList

/-- Keywords are ASCII. -/
theorem IsKeyword.toNat_lt {name : String} (h : IsKeyword name) {c : Char} (hc : c ∈ name.toList) :
    c.toNat < 128 := by
  have hall : name.toList.all (·.toNat < 128) = true := by
    rcases h with ⟨op, rfl⟩ | ⟨pseudo, rfl⟩
    · cases op <;> decide +kernel
    · cases pseudo with
      | spr => decide +kernel
  exact of_decide_eq_true (List.all_eq_true.mp hall c hc)

theorem capital_of_not_folds {c : Char} (h : ¬ Folds c) : capital c = c := by
  have hascii : ¬ c.toNat < 128 := fun hlt => h (.inl hlt)
  have hlower : ¬ ('a'.val ≤ c.val ∧ c.val ≤ 'z'.val) := by
    rintro ⟨-, hz⟩
    have hle : c.toNat ≤ 'z'.toNat := hz
    have hlast : 'z'.toNat < 128 := by decide
    omega
  rw [capital, if_neg fun hs => h (.inr (.inl hs)), if_neg fun hi => h (.inr (.inr hi))]
  exact dif_neg hlower

namespace Uppercase

/-- A text in upper case. -/
def fold (upper : Uppercase) (s : String) : List Char :=
  s.toList.flatMap upper.capitals

/-- A keyword is spelled with characters that fold. -/
theorem folds_of_fold (upper : Uppercase) {s name : String} (hname : IsKeyword name)
    (h : upper.fold s = name.toList) {c : Char} (hc : c ∈ s.toList) : Folds c := by
  by_contra hfolds
  apply upper.foreign c hfolds name hname
  rw [← h]
  exact List.infix_flatMap_of_mem hc upper.capitals

theorem fold_of_folds (upper : Uppercase) {s : String} (h : ∀ c ∈ s.toList, Folds c) :
    upper.fold s = (foldKeyword s).toList := by
  rw [fold, foldKeyword, String.toList_ofList, List.map_eq_flatMap]
  exact List.flatMap_congr fun c hc => upper.folding c (h c hc)

/-- **With any table of capitals the same texts are keywords.** -/
theorem fold_eq_iff (upper : Uppercase) {name : String} (hname : IsKeyword name) (s : String) :
    upper.fold s = name.toList ↔ foldKeyword s = name := by
  constructor
  · intro h
    have hfolds : ∀ c ∈ s.toList, Folds c := fun c hc => upper.folds_of_fold hname h hc
    rw [upper.fold_of_folds hfolds] at h
    exact String.toList_inj.mp h
  · intro h
    -- what does not fold stays as it is, and then it is no character of a keyword
    have hfolds : ∀ c ∈ s.toList, Folds c := by
      intro c hc
      by_contra hfolds
      exact hfolds (.inl (hname.toNat_lt (mem_of_fold h hc (capital_of_not_folds hfolds))))
    rw [upper.fold_of_folds hfolds, h]

/-- The operation with a given keyword, in upper case by the table. -/
def operation? (upper : Uppercase) (s : String) : Option Op :=
  Op.table.find? fun op => op.name.toList == upper.fold s

/-- The pseudo-operation with a given keyword, in upper case by the table. -/
def pseudo? (upper : Uppercase) (s : String) : Option Pseudo :=
  if upper.fold s = Pseudo.spr.name.toList then some .spr else none

theorem operation?_eq (upper : Uppercase) (s : String) : upper.operation? s = Op.ofKeyword? s := by
  rw [operation?, Op.ofKeyword?]
  congr 1
  funext op
  rw [Bool.eq_iff_iff, beq_iff_eq, beq_iff_eq, eq_comm, upper.fold_eq_iff (.inl ⟨op, rfl⟩),
    eq_comm]

theorem pseudo?_eq (upper : Uppercase) (s : String) : upper.pseudo? s = Pseudo.ofKeyword? s := by
  rw [pseudo?, Pseudo.ofKeyword?]
  simp only [upper.fold_eq_iff (.inr ⟨.spr, rfl⟩)]

/-- A table in which one character has two capitals. -/
def sharp : Uppercase where
  capitals c := if c = 'ß' then ['S', 'S'] else [capital c]
  folding := by
    intro c hc
    rw [if_neg]
    rintro rfl
    exact absurd hc (by decide)
  foreign := by
    intro c hc name hname
    by_cases heq : c = 'ß'
    · rw [if_pos heq]
      rcases hname with ⟨op, rfl⟩ | ⟨pseudo, rfl⟩
      · cases op <;> decide +kernel
      · cases pseudo with
        | spr => decide +kernel
    · rw [if_neg heq, capital_of_not_folds hc]
      intro hpart
      exact hc (.inl (hname.toNat_lt (hpart.mem List.mem_cons_self)))

instance : Inhabited Uppercase :=
  ⟨sharp⟩

end Uppercase

/-! ## Recognisers -/

/-- Where at most one of several tests finds something, their order does not matter. -/
theorem findSome?_perm {α β : Type} {f : α → Option β} {tests order : List α}
    (hone : (tests.filterMap f).length ≤ 1) (h : order.Perm tests) :
    order.findSome? f = tests.findSome? f := by
  have hfound : (order.filterMap f).Perm (tests.filterMap f) := h.filterMap f
  rw [← List.head?_filterMap, ← List.head?_filterMap]
  rcases hall : tests.filterMap f with _ | ⟨b, rest⟩
  · rw [hall] at hfound
    rw [hfound.eq_nil]
  · obtain rfl : rest = [] := by
      rw [hall, List.length_cons] at hone
      exact List.eq_nil_of_length_eq_zero (by omega)
    rw [hall] at hfound
    rw [List.perm_singleton.mp hfound]

namespace Source

open Token (Kind)

/-- The tests for the class of a lexeme, in the order in which they are made. -/
def recognisers : List (String → Option Kind) :=
  [fun s => (Literal.value? s).map .number,
    fun s => (Op.ofKeyword? s).map .operation,
    fun s => (Op.ofSymbol? s).map .operation,
    fun s => if isForm s then some .form else none]

/-- The first test that finds something decides. -/
theorem kind?_eq_findSome? (s : String) :
    Token.kind? s = recognisers.findSome? fun recognise => recognise s := by
  rw [Token.kind?]
  rcases hvalue : Literal.value? s with _ | v
  · rcases hkeyword : Op.ofKeyword? s with _ | op
    · rcases hsymbol : Op.ofSymbol? s with _ | op
      · rcases hform : isForm s with _ | _
        · simp [recognisers, hvalue, hkeyword, hsymbol, hform]
        · simp [recognisers, hvalue, hkeyword, hsymbol, hform]
      · simp [recognisers, hvalue, hkeyword, hsymbol]
    · simp [recognisers, hvalue, hkeyword]
  · simp [recognisers, hvalue]

/-- At most one test finds something. -/
theorem length_recognised (s : String) :
    (recognisers.filterMap fun recognise => recognise s).length ≤ 1 := by
  rcases hkeyword : Op.ofKeyword? s with _ | op
  · rcases hsymbol : Op.ofSymbol? s with _ | op
    · rcases hform : isForm s with _ | _
      · rcases hvalue : Literal.value? s with _ | v
        · simp [recognisers, hvalue, hkeyword, hsymbol, hform]
        · simp [recognisers, hvalue, hkeyword, hsymbol, hform]
      · simp [recognisers, value?_of_form hform, hkeyword, hsymbol, hform]
    · obtain ⟨hvalue, -, hform⟩ := symbol_only (mem_symbols hsymbol)
      simp [recognisers, hvalue, hkeyword, hsymbol, hform]
  · obtain ⟨hvalue, hform⟩ := keyword_only hkeyword
    have hsymbol : Op.ofSymbol? s = none := by
      rw [Option.eq_none_iff_forall_ne_some]
      intro op' hop'
      rw [(symbol_only (mem_symbols hop')).2.1] at hkeyword
      simp at hkeyword
    simp [recognisers, hvalue, hkeyword, hsymbol, hform]

/-- **The classes of lexemes are disjoint.** A text is recognised at most once, so in whatever
order the recognisers are asked, it is classified the same. In particular what ends in a colon
or starts with an `@` is kept for the assembler as it is spelled, whatever else it looks like.
For keywords this holds with every table of capitals. -/
theorem classes_disjoint (s : String) :
    (recognisers.filterMap fun recognise => recognise s).length ≤ 1
      ∧ (∀ order : List (String → Option Kind), order.Perm recognisers →
          (order.findSome? fun recognise => recognise s) = Token.kind? s)
      ∧ (s.toList.getLast? = some ':' ∨ s.toList.head? = some '@' →
          Token.ofLexeme s = .ok ⟨.form, s⟩)
      ∧ ∀ upper : Uppercase,
          upper.operation? s = Op.ofKeyword? s ∧ upper.pseudo? s = Pseudo.ofKeyword? s := by
  refine ⟨length_recognised s, ?_, ?_, ?_⟩
  · intro order horder
    rw [kind?_eq_findSome?]
    exact findSome?_perm (length_recognised s) horder
  · intro hshape
    have hform : isForm s = true := by
      rw [isForm, isDefinition, isReference, Bool.or_eq_true, Bool.or_eq_true, beq_iff_eq,
        beq_iff_eq]
      exact .inl hshape
    rw [Token.ofLexeme, Token.kind?_eq_form_iff.mpr hform]
  · intro upper
    exact ⟨upper.operation?_eq s, upper.pseudo?_eq s⟩

end Source

end StackMachine
