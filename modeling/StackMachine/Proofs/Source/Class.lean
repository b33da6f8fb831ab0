/-
No lexeme belongs to two classes.

A lexeme is classified by trying one class after the other: numbers, operations by keyword and
by symbol, and the forms of the assembler. Here it is shown that the order does not matter, so
that each class can be told by its own test alone (`kind?_eq_number_iff` and so on).

What keeps the classes apart are single characters. A keyword is compared after each of its
characters has been replaced by its capital, so a character that is its own capital stands in a
keyword as it is; and no keyword has a colon, a sign or an apostrophe in it, or starts with a
digit. A number starts with a sign, a digit or an apostrophe, and ends with a digit or an
apostrophe. The symbols are few enough to be looked at one by one.
-/
import StackMachine.Source.Token
import StackMachine.Proofs.Literal

set_option autoImplicit false

namespace StackMachine

/-! ## Keywords -/

/-- A digit is its own capital. -/
theorem capital_of_isDigit {c : Char} (h : c.isDigit = true) : capital c = c := by
  have hle : c.val ≤ '9'.val := by
    simp only [Char.isDigit, Bool.and_eq_true, decide_eq_true_eq] at h
    exact h.2
  -- the digits lie below every character that has a capital of its own
  have hlow : ∀ d : Char, '9'.val < d.val → c ≠ d := by
    rintro d hd rfl
    exact absurd hle (UInt32.not_le.mpr hd)
  have hlower : ¬ ('a'.val ≤ c.val ∧ c.val ≤ 'z'.val) := by
    rintro ⟨ha, -⟩
    exact absurd (UInt32.le_trans ha hle) (by decide)
  rw [capital, if_neg (hlow _ (by decide)), if_neg (hlow _ (by decide))]
  exact dif_neg hlower

section Fold

variable {s name : String} {c : Char}

theorem map_capital (h : foldKeyword s = name) : s.toList.map capital = name.toList := by
  rw [← h, foldKeyword, String.toList_ofList]

/-- A character that is its own capital is in the keyword, if it is in its spelling. -/
theorem mem_of_fold (h : foldKeyword s = name) (hc : c ∈ s.toList) (hcapital : capital c = c) :
    c ∈ name.toList := by
  rw [← map_capital h, ← hcapital]
  exact List.mem_map_of_mem hc

/-- The spelling of a keyword that starts with a letter is no number. -/
theorem value?_of_fold (h : foldKeyword s = name) (hname : name.toList.head?.any Char.isUpper = true) :
    Literal.value? s = none := by
  have hchars := map_capital h
  rcases hs : s.toList with _ | ⟨c, rest⟩
  · rw [hs, List.map_nil] at hchars
    rw [← hchars] at hname
    simp at hname
  · have hupper : (capital c).isUpper = true := by
      rw [hs, List.map_cons] at hchars
      rw [← hchars] at hname
      simpa using hname
    -- a letter is none of the characters that numbers start with, and these are their own capitals
    have hother : ∀ d : Char, capital d = d → d.isUpper = false → c ≠ d := by
      rintro d hcapital hd rfl
      rw [hcapital, hd] at hupper
      simp at hupper
    have hdigit : c.isDigit = false := by
      rw [Bool.eq_false_iff]
      intro hdigit
      rw [capital_of_isDigit hdigit] at hupper
      have hletter : 'A'.val ≤ c.val ∧ c.val ≤ 'Z'.val := of_decide_eq_true hupper
      simp only [Char.isDigit, Bool.and_eq_true, decide_eq_true_eq] at hdigit
      exact absurd (UInt32.le_trans hletter.1 hdigit.2) (by decide)
    exact Literal.value?_eq_none hs hdigit (hother _ (by decide) (by decide))
      (hother _ (by decide) (by decide)) (hother _ (by decide) (by decide))

end Fold

theorem fold_of_ofKeyword? {s : String} {op : Op} (h : Op.ofKeyword? s = some op) :
    foldKeyword s = op.name := by
  have hname := Array.find?_some h
  exact (beq_iff_eq.mp hname).symm

theorem fold_of_pseudo {s : String} {pseudo : Pseudo} (h : Pseudo.ofKeyword? s = some pseudo) :
    foldKeyword s = pseudo.name := by
  obtain ⟨⟩ := pseudo
  rw [Pseudo.ofKeyword?] at h
  split at h
  · assumption
  · simp at h

/-- What keywords are made of. -/
theorem Op.name_letters (op : Op) :
    op.name.toList.head?.any Char.isUpper = true ∧ ':' ∉ op.name.toList ∧ '@' ∉ op.name.toList
      ∧ op.name ≠ Pseudo.spr.name := by
  cases op <;> decide +kernel

/-! ## Numbers -/

namespace Literal

/-- All characters of a row of digits are digits. -/
theorem isSome_of_extend? {base acc n : Nat} {digits : List Char}
    (h : extend? base acc digits = some n) {c : Char} (hc : c ∈ digits) :
    (digitValue c).isSome = true := by
  induction digits generalizing acc with
  | nil => simp at hc
  | cons d digits ih =>
    rw [extend?_cons, Option.bind_eq_some_iff] at h
    obtain ⟨value, hvalue, hrest⟩ := h
    rcases List.mem_cons.mp hc with rfl | hc
    · rw [digit?, Option.filter_eq_some_iff] at hvalue
      rw [hvalue.1]
      rfl
    · exact ih hrest hc

theorem splitSign_suffix (cs : List Char) : (splitSign cs).2 <:+ cs := by
  unfold splitSign
  split
  · exact List.suffix_cons _ _
  · exact List.suffix_cons _ _
  · exact List.suffix_rfl

theorem splitBase_suffix (cs : List Char) : (splitBase cs).2 <:+ cs := by
  unfold splitBase
  split
  iterate 6 exact (List.suffix_cons _ _).trans (List.suffix_cons _ _)
  exact List.suffix_rfl

/-- An integer ends with a digit. -/
theorem getLast?_of_integer? {cs : List Char} {v : Int64} (h : integer? cs = some v) :
    ∃ c, cs.getLast? = some c ∧ (digitValue c).isSome = true := by
  have hread : (wrapping? (splitBase (splitSign cs).2).1 (splitBase (splitSign cs).2).2).map
      (fun v => if (splitSign cs).1 then -v else v) = some v := h
  obtain ⟨value, hvalue, -⟩ := Option.map_eq_some_iff.mp hread
  have hsuffix := (splitBase_suffix (splitSign cs).2).trans (splitSign_suffix cs)
  generalize (splitBase (splitSign cs).2).1 = base at hvalue
  generalize (splitBase (splitSign cs).2).2 = digits at hvalue hsuffix
  rw [wrapping?_eq] at hvalue
  obtain ⟨n, hn, -⟩ := Option.map_eq_some_iff.mp hvalue
  have hne : digits ≠ [] := by
    rintro rfl
    simp [natural?] at hn
  rw [natural?_of_ne_nil hne] at hn
  refine ⟨digits.getLast hne, ?_, isSome_of_extend? hn (List.getLast_mem hne)⟩
  obtain ⟨before, rfl⟩ := hsuffix
  rw [List.getLast?_append, List.getLast?_eq_some_getLast hne, Option.some_or]

/-- A character literal ends with an apostrophe. -/
theorem getLast?_of_character? {cs : List Char} {c : Char} (h : character? cs = some c) :
    cs.getLast? = some '\'' := by
  unfold character? at h
  split at h
  · split at h
    · rename_i hquoted
      simp [hquoted]
    · simp at h
  · split at h
    · rename_i hquoted
      simp [hquoted]
    · simp at h
  · simp at h

/-- A text that ends with a colon is no number. -/
theorem value?_of_colon {s : String} (h : s.toList.getLast? = some ':') : value? s = none := by
  rw [value?, Option.or_eq_none_iff, Option.map_eq_none_iff]
  constructor
  · rw [Option.eq_none_iff_forall_ne_some]
    intro v hv
    obtain ⟨c, hc, hdigit⟩ := getLast?_of_integer? hv
    obtain rfl : ':' = c := Option.some.inj (h.symm.trans hc)
    exact absurd hdigit (by decide)
  · rw [Option.eq_none_iff_forall_ne_some]
    intro c hc
    have hquote := getLast?_of_character? hc
    rw [h] at hquote
    simp at hquote

end Literal

/-! ## Symbols -/

/-- The spellings of operations that are no keywords. -/
def symbols : List String :=
  ["+", "-", "*", "/", "++", "--", "<<", ">>", "&", "|", "^", "~"]

theorem mem_symbols {s : String} {op : Op} (h : Op.ofSymbol? s = some op) : s ∈ symbols := by
  unfold Op.ofSymbol? at h
  split at h
  iterate 12 decide
  simp at h

namespace Source

/-- A symbol is nothing else. -/
theorem symbol_only {s : String} (h : s ∈ symbols) :
    Literal.value? s = none ∧ Op.ofKeyword? s = none ∧ isForm s = false := by
  revert s
  decide +kernel

/-- The lexeme is the keyword or the symbol of an operation. -/
def Spells (s : String) (op : Op) : Prop :=
  Op.ofKeyword? s = some op ∨ Op.ofSymbol? s = some op

/-- The keyword of an operation is nothing else. -/
theorem keyword_only {s : String} {op : Op} (h : Op.ofKeyword? s = some op) :
    Literal.value? s = none ∧ isForm s = false := by
  have hfold := fold_of_ofKeyword? h
  obtain ⟨hletter, hcolon, hat, hpseudo⟩ := op.name_letters
  refine ⟨value?_of_fold hfold hletter, ?_⟩
  have hdefinition : isDefinition s = false := by
    rw [isDefinition, beq_eq_false_iff_ne]
    intro hlast
    exact hcolon (mem_of_fold hfold (List.mem_of_getLast? hlast) (by decide))
  have hreference : isReference s = false := by
    rw [isReference, beq_eq_false_iff_ne]
    intro hhead
    exact hat (mem_of_fold hfold (List.mem_of_head? hhead) (by decide))
  have hnone : Pseudo.ofKeyword? s = none := by
    rw [Pseudo.ofKeyword?, if_neg (by rwa [hfold])]
  rw [isForm, hdefinition, hreference, hnone]
  rfl

theorem spells_of_or {s : String} {op : Op}
    (h : (Op.ofKeyword? s).or (Op.ofSymbol? s) = some op) : Spells s op := by
  rcases Option.or_eq_some_iff.mp h with hkeyword | ⟨-, hsymbol⟩
  · exact .inl hkeyword
  · exact .inr hsymbol

theorem spells_only {s : String} {op : Op} (h : Spells s op) :
    Literal.value? s = none ∧ (Op.ofKeyword? s).or (Op.ofSymbol? s) = some op
      ∧ isForm s = false := by
  rcases h with h | h
  · obtain ⟨hvalue, hform⟩ := keyword_only h
    exact ⟨hvalue, by rw [h, Option.some_or], hform⟩
  · obtain ⟨hvalue, hkeyword, hform⟩ := symbol_only (mem_symbols h)
    exact ⟨hvalue, by rw [hkeyword, Option.none_or, h], hform⟩

/-- The keyword of a pseudo-operation is nothing else, and has the shape of no other form. -/
theorem pseudo_only {s : String} {pseudo : Pseudo} (h : Pseudo.ofKeyword? s = some pseudo) :
    Literal.value? s = none ∧ isDefinition s = false ∧ isReference s = false := by
  have hfold := fold_of_pseudo h
  obtain ⟨⟩ := pseudo
  refine ⟨value?_of_fold hfold (by decide +kernel), ?_, ?_⟩
  · rw [isDefinition, beq_eq_false_iff_ne]
    intro hlast
    have hcolon := mem_of_fold hfold (List.mem_of_getLast? hlast) (by decide)
    exact absurd hcolon (by decide)
  · rw [isReference, beq_eq_false_iff_ne]
    intro hhead
    have hat := mem_of_fold hfold (List.mem_of_head? hhead) (by decide)
    exact absurd hat (by decide)

/-- A form of the assembler is no number. -/
theorem value?_of_form {s : String} (h : isForm s = true) : Literal.value? s = none := by
  rw [isForm, Bool.or_eq_true, Bool.or_eq_true] at h
  rcases h with (h | h) | h
  · exact Literal.value?_of_colon (beq_iff_eq.mp h)
  · obtain ⟨rest, hs⟩ := List.head?_eq_some_iff.mp (beq_iff_eq.mp h)
    exact Literal.value?_eq_none hs (by decide) (by decide) (by decide) (by decide)
  · obtain ⟨pseudo, hpseudo⟩ := Option.isSome_iff_exists.mp h
    exact (pseudo_only hpseudo).1

/-! ## Classes -/

theorem Token.kind?_eq_number_iff {s : String} {v : Int64} :
    Token.kind? s = some (.number v) ↔ Literal.value? s = some v := by
  rw [Token.kind?]
  rcases Literal.value? s with _ | value
  · rcases (Op.ofKeyword? s).or (Op.ofSymbol? s) with _ | op
    · rcases isForm s with _ | _
      · simp
      · simp
    · simp
  · simp

theorem Token.kind?_eq_operation_iff {s : String} {op : Op} :
    Token.kind? s = some (.operation op) ↔ Spells s op := by
  constructor
  · intro h
    rw [Token.kind?] at h
    split at h
    · simp at h
    · split at h
      · rename_i found hfound
        obtain rfl : found = op := by simpa using h
        exact spells_of_or hfound
      · split at h
        · simp at h
        · simp at h
  · intro h
    obtain ⟨hvalue, hspelling, -⟩ := spells_only h
    rw [Token.kind?, hvalue, hspelling]

theorem Token.kind?_eq_form_iff {s : String} :
    Token.kind? s = some .form ↔ isForm s = true := by
  constructor
  · intro h
    rw [Token.kind?] at h
    split at h
    · simp at h
    · split at h
      · simp at h
      · split at h
        · assumption
        · simp at h
  · intro h
    have hspelling : (Op.ofKeyword? s).or (Op.ofSymbol? s) = none := by
      rw [Option.eq_none_iff_forall_ne_some]
      intro op hop
      rw [(spells_only (spells_of_or hop)).2.2] at h
      simp at h
    rw [Token.kind?, value?_of_form h, hspelling]
    simp [h]

/-- The lexeme is of no class. -/
def Unknown (s : String) : Prop :=
  Literal.value? s = none ∧ (∀ op, ¬ Spells s op) ∧ isForm s = false

theorem Token.kind?_eq_none_iff {s : String} : Token.kind? s = none ↔ Unknown s := by
  constructor
  · intro h
    refine ⟨?_, ?_, ?_⟩
    · rw [Option.eq_none_iff_forall_ne_some]
      intro v hv
      rw [Token.kind?_eq_number_iff.mpr hv] at h
      simp at h
    · intro op hop
      rw [Token.kind?_eq_operation_iff.mpr hop] at h
      simp at h
    · rw [Bool.eq_false_iff]
      intro hform
      rw [Token.kind?_eq_form_iff.mpr hform] at h
      simp at h
  · rintro ⟨hvalue, hop, hform⟩
    rcases hkind : Token.kind? s with _ | (v | op | _)
    · rfl
    · rw [Token.kind?_eq_number_iff.mp hkind] at hvalue
      simp at hvalue
    · exact absurd (Token.kind?_eq_operation_iff.mp hkind) (hop op)
    · rw [Token.kind?_eq_form_iff.mp hkind] at hform
      simp at hform

theorem exists_kind {s : String} (h : ¬ Unknown s) : ∃ kind, Token.kind? s = some kind := by
  rcases hkind : Token.kind? s with _ | kind
  · exact absurd (Token.kind?_eq_none_iff.mp hkind) h
  · exact ⟨kind, rfl⟩

/-- A lexeme of some class is of one of the three. -/
theorem class_of_known {s : String} (h : ¬ Unknown s) :
    (∃ v, Literal.value? s = some v) ∨ (∃ op, Spells s op) ∨ isForm s = true := by
  obtain ⟨kind, hkind⟩ := exists_kind h
  cases kind with
  | number v => exact .inl ⟨v, Token.kind?_eq_number_iff.mp hkind⟩
  | operation op => exact .inr (.inl ⟨op, Token.kind?_eq_operation_iff.mp hkind⟩)
  | form => exact .inr (.inr (Token.kind?_eq_form_iff.mp hkind))

end Source

end StackMachine
