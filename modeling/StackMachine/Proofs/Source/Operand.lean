/-
Operands by their characters.

The reader tests an operand with predicates on characters and with the digit loop that literals
share. Here each test is put in the words of the language: a name is a word over
`[A-Za-z0-9_]` that starts with no digit, digits are read in base ten, and what stands behind
an `@` is a name, a line number or an offset with a sign (`RefersTo`).

The limits are not part of the shape. `@18446744073709551616` is a row of digits like any
other, but its number does not fit in 64 bits, and since it is no name either it is refused.
-/
import StackMachine.Proofs.Source.Line

set_option autoImplicit false

namespace StackMachine

/-! ## Digits -/

namespace Literal

/-- One of the ten digits. -/
def Digit (c : Char) : Prop :=
  '0' ≤ c ∧ c ≤ '9'

/-- A row of digits, and not an empty one. -/
def Digits (cs : List Char) : Prop :=
  cs ≠ [] ∧ ∀ c ∈ cs, Digit c

/-- The number that a row of digits is in base ten. -/
def decimal (cs : List Char) : Nat :=
  Nat.ofDigitChars 10 cs 0

theorem isDigit_iff {c : Char} : c.isDigit = true ↔ Digit c := by
  simp [Char.isDigit, Digit, Char.le_def]

theorem digit?_of_isDigit {c : Char} (h : c.isDigit = true) :
    digit? 10 c = some (c.toNat - '0'.toNat) := by
  have hlt : c.toNat - '0'.toNat < 10 := by
    have hle : c.toNat ≤ '9'.toNat := (Char.isDigit_iff_toNat.mp h).2
    have hnine : '9'.toNat = '0'.toNat + 9 := rfl
    omega
  rw [digit?, digitValue, if_pos h, Option.filter_some, if_pos (decide_eq_true hlt)]

theorem extend?_eq_some_iff {digits : List Char} {acc n : Nat} :
    extend? 10 acc digits = some n ↔ (∀ c ∈ digits, Digit c) ∧ n = Nat.ofDigitChars 10 digits acc := by
  induction digits generalizing acc with
  | nil => simp [extend?, Nat.ofDigitChars, eq_comm]
  | cons c digits ih =>
    rw [extend?_cons, List.forall_mem_cons, Nat.ofDigitChars_cons]
    by_cases hdigit : c.isDigit = true
    · rw [digit?_of_isDigit hdigit, Option.bind_some, ih, Nat.mul_comm acc 10]
      have hc := isDigit_iff.mp hdigit
      simp [hc]
    · -- one character that is no digit spoils the whole row
      have hc : ¬ Digit c := fun h => hdigit (isDigit_iff.mpr h)
      rw [digit?_of_not_isDigit (Bool.eq_false_iff.mpr hdigit)]
      simp [hc]

theorem natural?_eq_some_iff {digits : List Char} {n : Nat} :
    natural? 10 digits = some n ↔ Digits digits ∧ n = decimal digits := by
  by_cases hnil : digits = []
  · simp [hnil, natural?, Digits]
  · rw [natural?_of_ne_nil hnil, extend?_eq_some_iff, decimal, Digits]
    simp [hnil]

end Literal

namespace Source

open Literal (Digit Digits decimal)

/-! ## Names -/

/-- A letter or an underscore. -/
def NameStart (c : Char) : Prop :=
  ('A' ≤ c ∧ c ≤ 'Z') ∨ ('a' ≤ c ∧ c ≤ 'z') ∨ c = '_'

/-- A word over letters, digits and underscores that does not start with a digit. -/
def Named (cs : List Char) : Prop :=
  ∃ c rest, cs = c :: rest ∧ NameStart c ∧ ∀ d ∈ rest, NameStart d ∨ Digit d

theorem isNameStart_iff {c : Char} : isNameStart c = true ↔ NameStart c := by
  have hupper : c.isUpper = true ↔ 'A' ≤ c ∧ c ≤ 'Z' := decide_eq_true_iff
  have hlower : c.isLower = true ↔ 'a' ≤ c ∧ c ≤ 'z' := by
    show (decide ('a' ≤ c) && decide (c ≤ 'z')) = true ↔ _
    rw [Bool.and_eq_true, decide_eq_true_iff, decide_eq_true_iff]
  show (c.isUpper || c.isLower || c == '_') = true ↔ _
  rw [Bool.or_eq_true, Bool.or_eq_true, hupper, hlower, beq_iff_eq, or_assoc, NameStart]

theorem isNameRest_iff {c : Char} : isNameRest c = true ↔ NameStart c ∨ Digit c := by
  have hsplit : isNameRest c = (isNameStart c || c.isDigit) := by
    show (c.isAlpha || c.isDigit || c == '_') = (c.isAlpha || c == '_' || c.isDigit)
    rw [Bool.or_assoc, Bool.or_assoc, Bool.or_comm c.isDigit]
  rw [hsplit, Bool.or_eq_true, isNameStart_iff, Literal.isDigit_iff]

theorem isName_iff {s : String} : isName s = true ↔ Named s.toList := by
  rw [isName]
  rcases s.toList with _ | ⟨c, rest⟩
  · simp [Named]
  · rw [Bool.and_eq_true, isNameStart_iff, List.all_eq_true]
    simp only [isNameRest_iff]
    constructor
    · rintro ⟨hstart, hrest⟩
      exact ⟨c, rest, rfl, hstart, hrest⟩
    · rintro ⟨_, _, heq, hstart, hrest⟩
      obtain ⟨rfl, rfl⟩ := List.cons.inj heq
      exact ⟨hstart, hrest⟩

/-- Neither a digit nor a sign starts a name. -/
theorem not_digit_of_nameStart {c : Char} (hstart : NameStart c) :
    ¬ Digit c ∧ c ≠ '+' ∧ c ≠ '-' := by
  refine ⟨?_, ?_, ?_⟩
  · rintro ⟨-, hnine⟩
    -- the digits lie below all letters and the underscore
    have hlow : ∀ d : Char, '9' < d → ¬ d ≤ c := fun d hd hle =>
      Char.not_le.mpr hd (Char.le_trans hle hnine)
    rcases hstart with ⟨h, -⟩ | ⟨h, -⟩ | rfl
    · exact hlow _ (by decide) h
    · exact hlow _ (by decide) h
    · exact hlow '_' (by decide) (Char.le_refl _)
  · rintro rfl
    simp [NameStart] at hstart
  · rintro rfl
    simp [NameStart] at hstart

/-! ## References -/

/-- What may stand behind an `@`, and the place that it names. An offset is at least `-2^63` and
below `2^63`. -/
inductive RefersTo : List Char → Reference → Prop where
  | label {cs : List Char} (hname : Named cs) : RefersTo cs (.label (String.ofList cs))
  | line {cs : List Char} (hdigits : Digits cs) (hlimit : decimal cs < 2 ^ 64) :
      RefersTo cs (.line (decimal cs))
  | forward {cs : List Char} (hdigits : Digits cs) (hlimit : decimal cs < 2 ^ 63) :
      RefersTo ('+' :: cs) (.relative (decimal cs))
  | backward {cs : List Char} (hdigits : Digits cs) (hlimit : decimal cs ≤ 2 ^ 63) :
      RefersTo ('-' :: cs) (.relative (-(decimal cs : Int)))

namespace Reference

theorem lineNumber?_eq_some_iff {digits : List Char} {n : Nat} :
    lineNumber? digits = some n ↔ Digits digits ∧ n = decimal digits ∧ decimal digits < 2 ^ 64 := by
  rw [lineNumber?, Option.filter_eq_some_iff, Literal.natural?_eq_some_iff, decide_eq_true_iff]
  constructor
  · rintro ⟨⟨hdigits, rfl⟩, hlimit⟩
    exact ⟨hdigits, rfl, hlimit⟩
  · rintro ⟨hdigits, rfl, hlimit⟩
    exact ⟨⟨hdigits, rfl⟩, hlimit⟩

theorem offset?_plus_eq_some_iff {digits : List Char} {k : Int} :
    offset? false digits = some k
      ↔ Digits digits ∧ k = decimal digits ∧ decimal digits < 2 ^ 63 := by
  rw [offset?, Option.bind_eq_some_iff]
  simp only [Literal.natural?_eq_some_iff, Bool.false_eq_true, if_false,
    Option.ite_none_right_eq_some, Option.some.injEq]
  have hbound : offsetLimit = 2 ^ 63 := rfl
  constructor
  · rintro ⟨n, ⟨hdigits, rfl⟩, hlimit, rfl⟩
    exact ⟨hdigits, rfl, by omega⟩
  · rintro ⟨hdigits, rfl, hlimit⟩
    exact ⟨decimal digits, ⟨hdigits, rfl⟩, by omega, rfl⟩

/-- There is one more number below zero than above. -/
theorem offset?_minus_eq_some_iff {digits : List Char} {k : Int} :
    offset? true digits = some k
      ↔ Digits digits ∧ k = -(decimal digits : Int) ∧ decimal digits ≤ 2 ^ 63 := by
  rw [offset?, Option.bind_eq_some_iff]
  simp only [Literal.natural?_eq_some_iff, if_true, Option.ite_none_right_eq_some,
    Option.some.injEq]
  have hbound : offsetLimit = 2 ^ 63 := rfl
  constructor
  · rintro ⟨n, ⟨hdigits, rfl⟩, hlimit, rfl⟩
    exact ⟨hdigits, rfl, by omega⟩
  · rintro ⟨hdigits, rfl, hlimit⟩
    exact ⟨decimal digits, ⟨hdigits, rfl⟩, by omega, rfl⟩

/-- Without a sign in front it is a line number or a name. -/
theorem ofText?_of_unsigned {c : Char} (rest : List Char) (hplus : c ≠ '+') (hminus : c ≠ '-') :
    ofText? (String.ofList (c :: rest))
      = if (c :: rest).all Char.isDigit then (lineNumber? (c :: rest)).map line
        else if isName (String.ofList (c :: rest)) then some (label (String.ofList (c :: rest)))
        else none := by
  rw [ofText?, String.toList_ofList]
  split
  · rename_i heq
    exact absurd (List.cons.inj heq).1 hplus
  · rename_i heq
    exact absurd (List.cons.inj heq).1 hminus
  · rfl

theorem refersTo_of_ofText? {cs : List Char} {target : Reference}
    (h : ofText? (String.ofList cs) = some target) : RefersTo cs target := by
  rw [ofText?, String.toList_ofList] at h
  split at h
  · obtain ⟨k, hk, rfl⟩ := Option.map_eq_some_iff.mp h
    obtain ⟨hdigits, rfl, hlimit⟩ := offset?_plus_eq_some_iff.mp hk
    exact .forward hdigits hlimit
  · obtain ⟨k, hk, rfl⟩ := Option.map_eq_some_iff.mp h
    obtain ⟨hdigits, rfl, hlimit⟩ := offset?_minus_eq_some_iff.mp hk
    exact .backward hdigits hlimit
  · -- a row of digits is a line number even where it is too large for one, and then it is nothing
    split at h
    · obtain ⟨n, hn, rfl⟩ := Option.map_eq_some_iff.mp h
      obtain ⟨hdigits, rfl, hlimit⟩ := lineNumber?_eq_some_iff.mp hn
      exact .line hdigits hlimit
    · split at h
      · rename_i hname
        rw [← Option.some.inj h]
        exact .label (by simpa using isName_iff.mp hname)
      · simp at h

theorem ofText?_of_refersTo {cs : List Char} {target : Reference} (h : RefersTo cs target) :
    ofText? (String.ofList cs) = some target := by
  cases h with
  | label hname =>
    have hread : isName (String.ofList cs) = true := by
      rw [isName_iff, String.toList_ofList]
      exact hname
    obtain ⟨c, rest, rfl, hstart, -⟩ := hname
    obtain ⟨hdigit, hplus, hminus⟩ := not_digit_of_nameStart hstart
    have hall : ¬ (c :: rest).all Char.isDigit = true := by
      rw [List.all_eq_true]
      exact fun h => hdigit (Literal.isDigit_iff.mp (h c List.mem_cons_self))
    rw [ofText?_of_unsigned rest hplus hminus, if_neg hall, if_pos hread]
  | line hdigits hlimit =>
    obtain ⟨c, rest, rfl⟩ := List.exists_cons_of_ne_nil hdigits.1
    have hall : (c :: rest).all Char.isDigit = true := by
      rw [List.all_eq_true]
      exact fun d hd => Literal.isDigit_iff.mpr (hdigits.2 d hd)
    -- the signs are looked for first, but no digit is one
    have hsign : ∀ d : Char, d.isDigit = false → c ≠ d := by
      rintro d hd rfl
      rw [List.all_cons, hd, Bool.false_and] at hall
      simp at hall
    rw [ofText?_of_unsigned rest (hsign _ (by decide)) (hsign _ (by decide)), if_pos hall,
      lineNumber?_eq_some_iff.mpr ⟨hdigits, rfl, hlimit⟩, Option.map_some]
  | forward hdigits hlimit =>
    rw [ofText?, String.toList_ofList]
    exact Option.map_eq_some_iff.mpr ⟨_, offset?_plus_eq_some_iff.mpr ⟨hdigits, rfl, hlimit⟩, rfl⟩
  | backward hdigits hlimit =>
    rw [ofText?, String.toList_ofList]
    exact Option.map_eq_some_iff.mpr ⟨_, offset?_minus_eq_some_iff.mpr ⟨hdigits, rfl, hlimit⟩, rfl⟩

end Reference

/-! ## Operands -/

/-- The operand that a lexeme is read as. -/
inductive ReadAs (x : String) : Operand → Prop where
  /-- A literal, of which the low 16 bits count. -/
  | literal {v : Int64} (hvalue : Literal.value? x = some v) :
      ReadAs x (.literal (Literal.toWord v))
  /-- A place in the program. -/
  | reference {body : List Char} {target : Reference} (hx : x.toList = '@' :: body)
      (htarget : RefersTo body target) : ReadAs x (.reference target)

/-- What an operand looks like it was meant to be. -/
def wanted (x : String) : OperandForm :=
  if isReference x then .address else .immediate

variable {x : String} {operand : Operand}

theorem Operand.ofLexeme_of_kind {kind : Token.Kind} (h : Token.kind? x = some kind) :
    Operand.ofLexeme x = Operand.ofToken ⟨kind, x⟩ := by
  rw [Operand.ofLexeme, Token.ofLexeme_of_kind h]
  rfl

theorem ofLexeme_of_readAs (h : ReadAs x operand) : Operand.ofLexeme x = .ok operand := by
  cases h with
  | literal hvalue =>
    rw [Operand.ofLexeme_of_kind (Token.kind?_eq_number_iff.mpr hvalue)]
    rfl
  | reference hx htarget =>
    have hform : isForm x = true := by simp [isForm, isReference, hx]
    rw [Operand.ofLexeme_of_kind (Token.kind?_eq_form_iff.mpr hform)]
    simp only [Operand.ofToken, hx, Reference.ofText?_of_refersTo htarget]

/-- A lexeme of some class that is no operand is refused for what it looks like. -/
theorem ofLexeme_of_not_readAs (hknown : ¬ Unknown x) (h : ∀ operand, ¬ ReadAs x operand) :
    Operand.ofLexeme x = .error (.badOperand x (wanted x)) := by
  rcases class_of_known hknown with ⟨v, hvalue⟩ | ⟨op, hop⟩ | hform
  · exact absurd (.literal hvalue) (h _)
  · have hreference : isReference x = false := by
      have hform := (spells_only hop).2.2
      rw [isForm, Bool.or_eq_false_iff, Bool.or_eq_false_iff] at hform
      exact hform.1.2
    rw [Operand.ofLexeme_of_kind (Token.kind?_eq_operation_iff.mpr hop), wanted, hreference]
    rfl
  · rw [Operand.ofLexeme_of_kind (Token.kind?_eq_form_iff.mpr hform), wanted]
    unfold Operand.ofToken
    simp only
    split
    · rename_i body hx
      -- what the text behind the mark could refer to would be a reading of the lexeme
      have hnone : Reference.ofText? (String.ofList body) = none := by
        rw [Option.eq_none_iff_forall_ne_some]
        intro target htarget
        exact h _ (.reference hx (Reference.refersTo_of_ofText? htarget))
      simp [hnone, isReference, hx]
    · rename_i hother
      have hreference : isReference x = false := by
        rw [isReference, beq_eq_false_iff_ne]
        intro hhead
        obtain ⟨body, hx⟩ := List.head?_eq_some_iff.mp hhead
        exact hother body hx
      simp [hreference]

/-- **An operand is read exactly if it is a literal or a reference**, and as that. -/
theorem ofLexeme_eq_ok_iff : Operand.ofLexeme x = .ok operand ↔ ReadAs x operand := by
  refine ⟨fun hread => ?_, ofLexeme_of_readAs⟩
  -- what has a reading is read as that, and what has none is refused, of some class or of none
  by_cases hsome : ∃ other, ReadAs x other
  · obtain ⟨other, hother⟩ := hsome
    rw [ofLexeme_of_readAs hother] at hread
    rwa [← Except.ok.inj hread]
  · by_cases hunknown : Unknown x
    · rw [Operand.ofLexeme, Token.ofLexeme, Token.kind?_eq_none_iff.mpr hunknown] at hread
      simp [bind, Except.bind] at hread
    · rw [ofLexeme_of_not_readAs hunknown (fun other h => hsome ⟨other, h⟩)] at hread
      simp at hread

end Source

end StackMachine
