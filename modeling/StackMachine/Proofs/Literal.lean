/-
Literals by the numbers they spell.

A row of digits is read in 64 bits with wrap-around, but each step of that is the exact
step taken modulo `2^64`, so the result is the exact value reduced once. The digits that
a number is printed with in base sixteen have that number as their exact value, and so a
word that is printed with a base mark is read as the same word. A text that starts like no
literal is none.
-/
import StackMachine.Literal
import StackMachine.Text.Layout

set_option autoImplicit false

namespace StackMachine.Literal

/-! ## Exact values -/

/-- The exact value of a number with further digits behind it. -/
def extend? (base acc : Nat) (digits : List Char) : Option Nat :=
  digits.foldlM (fun acc c => (digit? base c).map fun d => acc * base + d) acc

theorem extend?_cons (base acc : Nat) (c : Char) (digits : List Char) :
    extend? base acc (c :: digits)
      = (digit? base c).bind fun d => extend? base (acc * base + d) digits := by
  rw [extend?, List.foldlM_cons]
  rcases digit? base c with _ | d
  · rfl
  · rfl

theorem extend?_append (base acc : Nat) (left right : List Char) :
    extend? base acc (left ++ right)
      = (extend? base acc left).bind fun value => extend? base value right := by
  rw [extend?, List.foldlM_append]
  rfl

theorem natural?_of_ne_nil {base : Nat} {digits : List Char} (h : digits ≠ []) :
    natural? base digits = extend? base 0 digits := by
  rw [natural?, if_neg (by simpa using h)]
  rfl

/-- Reading in 64 bits is reading exactly and reducing the value. -/
theorem wrapping?_eq (base : Nat) (digits : List Char) :
    wrapping? base digits = (natural? base digits).map Int64.ofNat := by
  -- at every digit the accumulator is the exact one, reduced
  have hfold : ∀ (acc : Nat),
      digits.foldlM (fun acc c => (digit? base c).map fun d =>
        acc * Int64.ofNat base + Int64.ofNat d) (Int64.ofNat acc)
        = (extend? base acc digits).map Int64.ofNat := by
    induction digits with
    | nil => exact fun _ => rfl
    | cons c digits ih =>
      intro acc
      rw [List.foldlM_cons, extend?_cons]
      rcases digit? base c with _ | d
      · rfl
      · have hstep : Int64.ofNat acc * Int64.ofNat base + Int64.ofNat d
            = Int64.ofNat (acc * base + d) := by
          rw [Int64.ofNat_add, Int64.ofNat_mul]
        simp only [Option.map_some, Option.bind_eq_bind, Option.bind_some, hstep, ih]
  by_cases hnil : digits = []
  · rw [hnil]
    rfl
  · rw [natural?_of_ne_nil hnil, ← hfold, wrapping?, if_neg (by simpa using hnil)]
    rfl

/-! ## Texts that are no literals -/

theorem digit?_of_not_isDigit {c : Char} (h : c.isDigit = false) : digit? 10 c = none := by
  rw [digit?, digitValue, h, if_neg Bool.false_ne_true]
  split
  · simp
  · split
    · simp
    · rfl

/-- A text whose first character is no sign, no digit and no apostrophe is no literal. -/
theorem value?_eq_none {s : String} {c : Char} {rest : List Char} (hs : s.toList = c :: rest)
    (hdigit : c.isDigit = false) (hquote : c ≠ '\'') (hminus : c ≠ '-') (hplus : c ≠ '+') :
    value? s = none := by
  have hzero : c ≠ '0' := by
    rintro rfl
    simp at hdigit
  have hsign : splitSign (c :: rest) = (false, c :: rest) := by
    unfold splitSign
    split
    · rename_i heq
      exact absurd (List.cons.inj heq).1 hminus
    · rename_i heq
      exact absurd (List.cons.inj heq).1 hplus
    · rfl
  have hbase : splitBase (c :: rest) = (10, c :: rest) := by
    unfold splitBase
    split
    -- all base marks start with a zero
    iterate 6
      rename_i heq
      exact absurd (List.cons.inj heq).1 hzero
    rfl
  have hinteger : integer? (c :: rest) = none := by
    simp [integer?, hsign, hbase, wrapping?, digit?_of_not_isDigit hdigit]
  have hcharacter : character? (c :: rest) = none := by
    unfold character?
    split
    · rename_i heq
      rw [if_neg fun h => hquote ((List.cons.inj heq).1.trans h.1)]
    · rename_i heq
      rw [if_neg fun h => hquote ((List.cons.inj heq).1.trans h.1)]
    · rfl
  rw [value?, hs, hinteger, hcharacter]
  rfl

/-! ## Hexadecimal numbers -/

/-- Digits in base sixteen have the value they were made from. -/
theorem digit?_digitChar {d : Nat} (h : d < 16) :
    digit? 16 (Nat.digitChar d).toUpper = some d := by
  revert d
  decide

/-- A number is read back from its digits. -/
theorem extend?_toDigits (n : Nat) :
    extend? 16 0 ((Nat.toDigits 16 n).map Char.toUpper) = some n := by
  induction n using Nat.strongRecOn with
  | ind n ih =>
    by_cases hlt : n < 16
    · rw [Nat.toDigits_of_lt_base hlt, List.map_singleton, extend?_cons, digit?_digitChar hlt]
      simp [extend?]
    · have hmod : n % 16 < 16 := Nat.mod_lt n (by decide)
      -- the last digit is the remainder, and those before it are the digits of the quotient
      rw [Nat.toDigits_of_base_le (by decide) (by omega), List.map_append, extend?_append,
        ih (n / 16) (by omega), List.map_singleton, Option.bind_some, extend?_cons,
        digit?_digitChar hmod, Option.bind_some]
      show some (n / 16 * 16 + n % 16) = some n
      rw [Nat.div_add_mod']

theorem extend?_zeros (k : Nat) : extend? 16 0 (List.replicate k '0') = some 0 := by
  induction k with
  | zero => rfl
  | succ k ih =>
    rw [List.replicate_succ, extend?_cons]
    exact ih

theorem toList_hex4 (n : Nat) :
    (Text.hex4 n).toList = List.replicate (4 - (Nat.toDigits 16 n).length) '0'
      ++ (Nat.toDigits 16 n).map Char.toUpper := by
  simp [Text.hex4, Text.padLeft, Text.fill]

/-- The zeros in front of a number do not change it. -/
theorem natural?_hex4 (n : Nat) : natural? 16 (Text.hex4 n).toList = some n := by
  have hne : (Text.hex4 n).toList ≠ [] := by
    rw [toList_hex4]
    simp [Nat.toDigits_ne_nil]
  rw [natural?_of_ne_nil hne, toList_hex4, extend?_append, extend?_zeros, Option.bind_some,
    extend?_toDigits]

theorem mem_toDigits {n : Nat} {c : Char} (h : c ∈ Nat.toDigits 16 n) :
    ∃ d < 16, c = Nat.digitChar d := by
  induction n using Nat.strongRecOn with
  | ind n ih =>
    by_cases hlt : n < 16
    · rw [Nat.toDigits_of_lt_base hlt, List.mem_singleton] at h
      exact ⟨n, hlt, h⟩
    · rw [Nat.toDigits_of_base_le (by decide) (by omega), List.mem_append] at h
      rcases h with h | h
      · exact ih (n / 16) (by omega) h
      · exact ⟨n % 16, Nat.mod_lt n (by decide), List.mem_singleton.mp h⟩

/-- A hexadecimal number has no characters but digits. -/
theorem mem_hex4 {n : Nat} {c : Char} (h : c ∈ (Text.hex4 n).toList) :
    ∃ d < 16, c = (Nat.digitChar d).toUpper := by
  rw [toList_hex4, List.mem_append] at h
  rcases h with h | h
  · exact ⟨0, by decide, (List.mem_replicate.mp h).2⟩
  · obtain ⟨digit, hdigit, rfl⟩ := List.mem_map.mp h
    obtain ⟨d, hd, rfl⟩ := mem_toDigits hdigit
    exact ⟨d, hd, rfl⟩

/-- **A printed word is read back.** -/
theorem value?_hex4 (n : Nat) : value? ("0x" ++ Text.hex4 n) = some (Int64.ofNat n) := by
  have hlist : ("0x" ++ Text.hex4 n).toList = '0' :: 'x' :: (Text.hex4 n).toList := by simp
  have hinteger : integer? ('0' :: 'x' :: (Text.hex4 n).toList) = some (Int64.ofNat n) := by
    have hread : wrapping? 16 (Text.hex4 n).toList = some (Int64.ofNat n) := by
      rw [wrapping?_eq, natural?_hex4, Option.map_some]
    simp [integer?, splitSign, splitBase, hread]
  rw [value?, hlist, hinteger, Option.some_or]

theorem toWord_ofNat (w : Word) : toWord (Int64.ofNat w.toNat) = w := by
  rw [toWord, Int64.toUInt64_ofNat', UInt64.toUInt16_ofNat', UInt16.ofNat_toNat]

end StackMachine.Literal
