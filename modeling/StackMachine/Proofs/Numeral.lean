/-
The language of number literals, and the numbers in it.

Here a literal is described by its characters alone: a sign, the mark of a base and a row of
digits, or one character between apostrophes (`Writes`). The number is an integer without
bounds, the one that the library has for a row of digits (`Nat.ofDigits`).

The reader takes the sign and the mark off the front and accumulates the digits in 64 bits, with
wrap-around at every step. That the order of these steps does not matter, and that the result is
the integer reduced once, is `value?_eq`. What no 64 bits can hold is lost there: an operand keeps
16 of them and loses nothing by it (`toNat_toWord`), but whoever compares the 64-bit value with a
bound compares the wrong number.
-/
import StackMachine.Proofs.Literal
import Mathlib.Data.List.Forall2
import Mathlib.Data.Nat.Digits.Defs
import Mathlib.Tactic.Ring

set_option autoImplicit false

namespace StackMachine.Literal

/-! ## The language -/

/-- The character is the digit `d` of a base; letters count from ten, in either case. -/
def DigitOf (base d : Nat) (c : Char) : Prop :=
  d < base ∧ (c = Nat.digitChar d ∨ c = (Nat.digitChar d).toUpper)

/-- A row of digits, and not an empty one, with its number. The last digit counts least. -/
def Row (base : Nat) (cs : List Char) (n : Nat) : Prop :=
  ∃ digits : List Nat, digits ≠ [] ∧ List.Forall₂ (DigitOf base) digits cs
    ∧ n = Nat.ofDigits base digits.reverse

/-- What may stand in front of an integer, with the factor it stands for. -/
inductive Sign : List Char → Int → Prop where
  | bare : Sign [] 1
  | plus : Sign ['+'] 1
  | minus : Sign ['-'] (-1)

/-- The mark of a base. -/
inductive Mark : List Char → Nat → Prop where
  | decimal : Mark [] 10
  | hexadecimal {c : Char} (h : c = 'x' ∨ c = 'X') : Mark ['0', c] 16
  | binary {c : Char} (h : c = 'b' ∨ c = 'B') : Mark ['0', c] 2
  | octal {c : Char} (h : c = 'o' ∨ c = 'O') : Mark ['0', c] 8

/-- An integer literal and the integer. -/
inductive WritesInteger : List Char → Int → Prop where
  | intro {sign mark digits : List Char} {factor : Int} {base n : Nat} (hsign : Sign sign factor)
      (hmark : Mark mark base) (hdigits : Row base digits n) :
      WritesInteger (sign ++ (mark ++ digits)) (factor * n)

/-- The letters that may follow a backslash, with the characters they stand for. -/
def escapes : List (Char × Char) :=
  [('n', '\n'), ('t', '\t'), ('r', '\r'), ('0', '\x00'), ('\\', '\\'), ('\'', '\'')]

/-- A character literal and the character. -/
inductive WritesCharacter : List Char → Char → Prop where
  | plain {c : Char} (h : c ≠ '\\') : WritesCharacter ['\'', c, '\''] c
  | escaped {letter c : Char} (h : (letter, c) ∈ escapes) :
      WritesCharacter ['\'', '\\', letter, '\''] c

/-- A literal and its number; for a character, the code point. -/
inductive Writes (cs : List Char) : Int → Prop where
  | integer {v : Int} (h : WritesInteger cs v) : Writes cs v
  | character {c : Char} (h : WritesCharacter cs c) : Writes cs c.toNat

/-! ## Digits -/

section Digits

variable {base d : Nat} {c : Char}

/-- The characters of a range, by their distance from its first. -/
theorem exists_distance {first last : Char} (hlow : first ≤ c) (hhigh : c ≤ last) :
    ∃ k ≤ last.toNat - first.toNat, c.toNat = first.toNat + k
      ∧ c = Char.ofNat (first.toNat + k) := by
  have hle : ∀ {a b : Char}, a ≤ b → a.toNat ≤ b.toNat := fun h => h
  have hfirst := hle hlow
  have hlast := hle hhigh
  have hsum : first.toNat + (c.toNat - first.toNat) = c.toNat := by omega
  refine ⟨c.toNat - first.toNat, by omega, hsum.symm, ?_⟩
  rw [hsum, Char.ofNat_toNat]

/-- A character is a digit exactly where the reader finds a value for it. -/
theorem digitValue_eq_some_iff :
    digitValue c = some d ↔ d < 16 ∧ (c = Nat.digitChar d ∨ c = (Nat.digitChar d).toUpper) := by
  constructor
  · intro h
    rw [digitValue] at h
    split at h
    · rename_i hdigit
      have hrange : '0' ≤ c ∧ c ≤ '9' := Char.isDigit_iff_toNat.mp hdigit
      obtain ⟨k, hk, hnat, hc⟩ := exists_distance hrange.1 hrange.2
      obtain rfl : k = d := by simpa [hnat] using h
      have hchars : ∀ k ≤ '9'.toNat - '0'.toNat,
          k < 16 ∧ Char.ofNat ('0'.toNat + k) = Nat.digitChar k := by decide
      exact ⟨(hchars k hk).1, .inl (hc.trans (hchars k hk).2)⟩
    · split at h
      · rename_i hletter
        obtain ⟨k, hk, hnat, hc⟩ := exists_distance hletter.1 hletter.2
        obtain rfl : k + 10 = d := by simpa [hnat] using h
        have hchars : ∀ k ≤ 'f'.toNat - 'a'.toNat,
            k + 10 < 16 ∧ Char.ofNat ('a'.toNat + k) = Nat.digitChar (k + 10) := by decide
        exact ⟨(hchars k hk).1, .inl (hc.trans (hchars k hk).2)⟩
      · split at h
        · rename_i hletter
          obtain ⟨k, hk, hnat, hc⟩ := exists_distance hletter.1 hletter.2
          obtain rfl : k + 10 = d := by simpa [hnat] using h
          have hchars : ∀ k ≤ 'F'.toNat - 'A'.toNat,
              k + 10 < 16 ∧ Char.ofNat ('A'.toNat + k) = (Nat.digitChar (k + 10)).toUpper := by
            decide
          exact ⟨(hchars k hk).1, .inr (hc.trans (hchars k hk).2)⟩
        · simp at h
  · rintro ⟨hd, hc⟩
    have hvalues : ∀ k < 16, digitValue (Nat.digitChar k) = some k
        ∧ digitValue (Nat.digitChar k).toUpper = some k := by decide
    rcases hc with rfl | rfl
    · exact (hvalues d hd).1
    · exact (hvalues d hd).2

theorem digit?_eq_some_iff (hbase : base ≤ 16) : digit? base c = some d ↔ DigitOf base d c := by
  rw [digit?, Option.filter_eq_some_iff, digitValue_eq_some_iff, decide_eq_true_iff, DigitOf]
  constructor
  · rintro ⟨⟨-, hc⟩, hd⟩
    exact ⟨hd, hc⟩
  · rintro ⟨hd, hc⟩
    exact ⟨⟨by omega, hc⟩, hd⟩

/-- Further digits behind a number move it up by as many places. -/
theorem extend?_eq_some_iff_digits (hbase : base ≤ 16) {cs : List Char} {acc n : Nat} :
    extend? base acc cs = some n
      ↔ ∃ digits, List.Forall₂ (DigitOf base) digits cs
        ∧ n = acc * base ^ digits.length + Nat.ofDigits base digits.reverse := by
  induction cs generalizing acc with
  | nil =>
    simp only [List.forall₂_nil_right_iff, exists_eq_left]
    simp [extend?, eq_comm]
  | cons c cs ih =>
    -- the first digit is moved up by the places of the others
    have hfirst : ∀ (d : Nat) (digits : List Nat),
        acc * base ^ (d :: digits).length + Nat.ofDigits base (d :: digits).reverse
          = (acc * base + d) * base ^ digits.length + Nat.ofDigits base digits.reverse := by
      intro d digits
      rw [List.reverse_cons, Nat.ofDigits_append, Nat.ofDigits_singleton, List.length_reverse,
        List.length_cons]
      ring
    rw [extend?_cons, Option.bind_eq_some_iff]
    simp only [digit?_eq_some_iff hbase, ih]
    constructor
    · rintro ⟨d, hd, digits, hdigits, rfl⟩
      exact ⟨d :: digits, .cons hd hdigits, (hfirst d digits).symm⟩
    · rintro ⟨_, hdigits, rfl⟩
      rcases hdigits with _ | ⟨hd, hdigits⟩
      rename_i d digits
      exact ⟨d, hd, digits, hdigits, hfirst d digits⟩

theorem natural?_eq_some_iff_row (hbase : base ≤ 16) {cs : List Char} {n : Nat} :
    natural? base cs = some n ↔ Row base cs n := by
  by_cases hnil : cs = []
  · subst hnil
    simp only [Row, List.forall₂_nil_right_iff]
    simp [natural?]
  · rw [natural?_of_ne_nil hnil, extend?_eq_some_iff_digits hbase, Row]
    refine exists_congr fun digits => ?_
    rw [Nat.zero_mul, Nat.zero_add]
    constructor
    · rintro ⟨hdigits, hn⟩
      refine ⟨?_, hdigits, hn⟩
      rintro rfl
      rcases hdigits with _ | _
      exact hnil rfl
    · rintro ⟨-, hdigits, hn⟩
      exact ⟨hdigits, hn⟩

theorem Row.ne_nil {cs : List Char} {n : Nat} (h : Row base cs n) : cs ≠ [] := by
  rintro rfl
  obtain ⟨digits, hne, hdigits, -⟩ := h
  exact hne (List.forall₂_nil_right_iff.mp hdigits)

theorem Row.exists_digit {cs : List Char} {n : Nat} (h : Row base cs n) (hc : c ∈ cs) :
    ∃ d, DigitOf base d c := by
  obtain ⟨digits, -, hdigits, -⟩ := h
  induction hdigits with
  | nil => simp at hc
  | cons hd _ ih =>
    rcases List.mem_cons.mp hc with rfl | hc
    · exact ⟨_, hd⟩
    · exact ih hc

/-- A digit of base ten is no letter. -/
theorem DigitOf.isDigit (h : DigitOf 10 d c) : c.isDigit = true := by
  obtain ⟨hd, hc⟩ := h
  have hchars : ∀ k < 10, (Nat.digitChar k).isDigit = true
      ∧ (Nat.digitChar k).toUpper.isDigit = true := by decide
  rcases hc with rfl | rfl
  · exact (hchars d hd).1
  · exact (hchars d hd).2

end Digits

/-! ## Integers -/

theorem Mark.base_le {mark : List Char} {base : Nat} (h : Mark mark base) : base ≤ 16 := by
  cases h <;> decide

/-- The exact value of an integer literal. -/
def exactInteger? (cs : List Char) : Option Int :=
  let (negative, body) := splitSign cs
  let (base, digits) := splitBase body
  (natural? base digits).map fun (n : Nat) => if negative then -(n : Int) else (n : Int)

theorem integer?_eq (cs : List Char) : integer? cs = (exactInteger? cs).map Int64.ofInt := by
  rcases hsign : splitSign cs with ⟨negative, body⟩
  rcases hmark : splitBase body with ⟨base, digits⟩
  simp only [integer?, exactInteger?, hsign, hmark, wrapping?_eq, Option.map_map]
  congr 1
  funext n
  rcases negative with _ | _
  · simp [Int64.ofInt_eq_ofNat]
  · simp [Int64.ofInt_neg, Int64.ofInt_eq_ofNat]

/-- What is taken off as a sign is one. -/
theorem exists_sign (cs : List Char) :
    ∃ sign, Sign sign (if (splitSign cs).1 then -1 else 1) ∧ cs = sign ++ (splitSign cs).2 := by
  unfold splitSign
  split
  · exact ⟨_, .minus, rfl⟩
  · exact ⟨_, .plus, rfl⟩
  · exact ⟨_, .bare, rfl⟩

/-- What is taken off as the mark of a base is one. -/
theorem exists_mark (cs : List Char) :
    ∃ mark, Mark mark (splitBase cs).1 ∧ cs = mark ++ (splitBase cs).2 := by
  unfold splitBase
  split
  · exact ⟨_, .hexadecimal (.inl rfl), rfl⟩
  · exact ⟨_, .hexadecimal (.inr rfl), rfl⟩
  · exact ⟨_, .binary (.inl rfl), rfl⟩
  · exact ⟨_, .binary (.inr rfl), rfl⟩
  · exact ⟨_, .octal (.inl rfl), rfl⟩
  · exact ⟨_, .octal (.inr rfl), rfl⟩
  · exact ⟨_, .decimal, rfl⟩

section Parts

variable {sign mark digits : List Char} {factor : Int} {base n : Nat}

/-- A mark and its digits start with a digit of base ten, or with the digits themselves. -/
theorem exists_head_isDigit (hmark : Mark mark base) (hdigits : Row base digits n) :
    ∃ c rest, mark ++ digits = c :: rest ∧ c.isDigit = true := by
  cases hmark with
  | decimal =>
    obtain ⟨c, rest, rfl⟩ := List.exists_cons_of_ne_nil hdigits.ne_nil
    obtain ⟨d, hd⟩ := hdigits.exists_digit List.mem_cons_self
    exact ⟨c, rest, rfl, hd.isDigit⟩
  | hexadecimal _ | binary _ | octal _ => exact ⟨_, _, rfl, rfl⟩

/-- A sign is taken off where one is written. -/
theorem splitSign_append (hsign : Sign sign factor) {c : Char} {rest : List Char}
    (hc : c.isDigit = true) :
    splitSign (sign ++ c :: rest) = (decide (factor = -1), c :: rest) := by
  cases hsign with
  | plus | minus => rfl
  | bare =>
    rw [List.nil_append, splitSign.eq_def]
    split
    · rename_i heq
      obtain rfl := (List.cons.inj heq).1
      simp at hc
    · rename_i heq
      obtain rfl := (List.cons.inj heq).1
      simp at hc
    · rfl

/-- Without a mark the row of digits is read as it is: the second character of a mark is no digit
of base ten. -/
theorem splitBase_of_row (h : Row 10 digits n) : splitBase digits = (10, digits) := by
  have hsecond : ∀ c rest, digits = '0' :: c :: rest → c.isDigit = true := by
    rintro c rest rfl
    obtain ⟨d, hd⟩ := h.exists_digit (c := c) (by simp)
    exact hd.isDigit
  unfold splitBase
  split
  iterate 6
    exact absurd (hsecond _ _ rfl) (by decide)
  rfl

/-- The mark of a base is taken off where one is written. -/
theorem splitBase_append (hmark : Mark mark base) (hdigits : Row base digits n) :
    splitBase (mark ++ digits) = (base, digits) := by
  cases hmark with
  | decimal => exact splitBase_of_row hdigits
  | hexadecimal h | binary h | octal h =>
    rcases h with rfl | rfl
    · rfl
    · rfl

end Parts

theorem exactInteger?_eq_some_iff {cs : List Char} {v : Int} :
    exactInteger? cs = some v ↔ WritesInteger cs v := by
  constructor
  · intro h
    obtain ⟨sign, hsign, hcs⟩ := exists_sign cs
    obtain ⟨mark, hmark, hbody⟩ := exists_mark (splitSign cs).2
    have hread : (natural? (splitBase (splitSign cs).2).1 (splitBase (splitSign cs).2).2).map
        (fun (n : Nat) => if (splitSign cs).1 then -(n : Int) else (n : Int)) = some v := h
    obtain ⟨n, hn, rfl⟩ := Option.map_eq_some_iff.mp hread
    have hwrites := WritesInteger.intro hsign hmark ((natural?_eq_some_iff_row hmark.base_le).mp hn)
    rw [← hbody, ← hcs] at hwrites
    rcases hnegative : (splitSign cs).1 with _ | _
    · simpa [hnegative] using hwrites
    · simpa [hnegative] using hwrites
  · rintro ⟨hsign, hmark, hdigits⟩
    rename_i sign mark digits factor base n
    obtain ⟨c, rest, hbody, hc⟩ := exists_head_isDigit hmark hdigits
    have hmarked := splitBase_append hmark hdigits
    rw [hbody] at hmarked ⊢
    simp only [exactInteger?, splitSign_append hsign hc, hmarked,
      (natural?_eq_some_iff_row hmark.base_le).mpr hdigits, Option.map_some, Option.some.injEq]
    cases hsign with
    | bare | plus => simp
    | minus => simp

/-! ## Characters -/

theorem escape?_eq_some_iff {letter c : Char} :
    escape? letter = some c ↔ (letter, c) ∈ escapes := by
  constructor
  · intro h
    unfold escape? at h
    split at h
    iterate 6
      rw [← Option.some.inj h]
      decide
    simp at h
  · intro h
    simp only [escapes, List.mem_cons, Prod.mk.injEq, List.not_mem_nil, or_false] at h
    rcases h with ⟨rfl, rfl⟩ | ⟨rfl, rfl⟩ | ⟨rfl, rfl⟩ | ⟨rfl, rfl⟩ | ⟨rfl, rfl⟩ | ⟨rfl, rfl⟩
    iterate 6 rfl

theorem character?_eq_some_iff {cs : List Char} {c : Char} :
    character? cs = some c ↔ WritesCharacter cs c := by
  constructor
  · intro h
    unfold character? at h
    split at h
    · split at h
      · rename_i hquoted
        obtain ⟨rfl, hplain, rfl⟩ := hquoted
        rw [← Option.some.inj h]
        exact .plain hplain
      · simp at h
    · split at h
      · rename_i hquoted
        obtain ⟨rfl, rfl, rfl⟩ := hquoted
        exact .escaped (escape?_eq_some_iff.mp h)
      · simp at h
    · simp at h
  · rintro (hplain | hescape)
    · simp [character?, hplain]
    · simp [character?, escape?_eq_some_iff.mpr hescape]

/-! ## Literals -/

/-- The exact value of a literal in any of its forms. -/
def exactValue? (cs : List Char) : Option Int :=
  (exactInteger? cs).or ((character? cs).map fun c => (c.toNat : Int))

/-- An integer does not start with an apostrophe. -/
theorem WritesInteger.head?_ne {cs : List Char} {v : Int} (h : WritesInteger cs v) :
    cs.head? ≠ some '\'' := by
  obtain ⟨hsign, hmark, hdigits⟩ := h
  obtain ⟨c, rest, hbody, hc⟩ := exists_head_isDigit hmark hdigits
  rw [hbody]
  cases hsign with
  | bare =>
    rw [List.nil_append, List.head?_cons, ne_eq, Option.some.injEq]
    rintro rfl
    simp at hc
  | plus | minus => simp

theorem exactValue?_eq_some_iff {cs : List Char} {v : Int} :
    exactValue? cs = some v ↔ Writes cs v := by
  rw [exactValue?, Option.or_eq_some_iff, exactInteger?_eq_some_iff]
  constructor
  · rintro (h | ⟨-, h⟩)
    · exact .integer h
    · obtain ⟨c, hc, rfl⟩ := Option.map_eq_some_iff.mp h
      exact .character (character?_eq_some_iff.mp hc)
  · rintro (h | h)
    · exact .inl h
    · -- a character literal is no integer, so it is not overlooked
      refine .inr ⟨?_, by rw [character?_eq_some_iff.mpr h, Option.map_some]⟩
      rw [Option.eq_none_iff_forall_ne_some]
      intro v hv
      have hhead := (exactInteger?_eq_some_iff.mp hv).head?_ne
      rcases h with _ | _
      · exact hhead rfl
      · exact hhead rfl

/-- A literal has one number. -/
theorem Writes.unique {cs : List Char} {v w : Int} (hv : Writes cs v) (hw : Writes cs w) :
    v = w := by
  have h := (exactValue?_eq_some_iff.mpr hv).symm.trans (exactValue?_eq_some_iff.mpr hw)
  exact Option.some.inj h

/-- **Reading a literal is reading it exactly and reducing the number once.** -/
theorem value?_eq (s : String) : value? s = (exactValue? s.toList).map Int64.ofInt := by
  rw [value?, exactValue?, integer?_eq, Option.map_or, Option.map_map]
  congr 2

theorem value?_eq_some_iff {s : String} {x : Int64} :
    value? s = some x ↔ ∃ v, Writes s.toList v ∧ x = Int64.ofInt v := by
  rw [value?_eq, Option.map_eq_some_iff]
  simp only [exactValue?_eq_some_iff, eq_comm (b := x)]

/-- An operand keeps the low 16 bits of the number itself, since `2^16` divides `2^64`. -/
theorem toNat_toWord (v : Int) : ((toWord (Int64.ofInt v)).toNat : Int) = v % 65536 := by
  have hbits : (toWord (Int64.ofInt v)).toNat = (v % (2 ^ 64 : Nat)).toNat % 2 ^ 16 := by
    rw [toWord, UInt64.toNat_toUInt16, ← UInt64.toNat_toBitVec]
    show (Int64.ofInt v).toBitVec.toNat % 2 ^ 16 = _
    rw [Int64.toBitVec_ofInt, BitVec.toNat_ofInt]
  rw [hbits]
  omega

end StackMachine.Literal
