/-
Numbers of double precision.

A finite number is a natural number below `2^53` times a power of two whose
exponent is at least -1074. A decimal is read as the number nearest to it, a tie
going to the even mantissa. A number is written with the fewest digits that read
back as it, always positionally; of two such rows of digits the nearer is
taken, and of two equally near the greater.

All of this is exact arithmetic on natural numbers.
-/
set_option autoImplicit false

namespace StackMachine

/-- A number of double precision, or one of the values beyond them. -/
inductive Double where
  /-- The number `mantissa * 2^exponent`, with the sign in front. A zero has a
  sign too. -/
  | finite (negative : Bool) (mantissa : Nat) (exponent : Int)
  | infinite (negative : Bool)
  | notANumber
  deriving DecidableEq, Repr

namespace Double

/-- The mantissa of a number that is not too small lies in
`[leastNormal, 2 * leastNormal)`. -/
def leastNormal : Nat := 4503599627370496

/-- The least exponent of two. -/
def leastExponent : Int := -1074

/-- The greatest exponent of two. -/
def greatestExponent : Int := 971

/-- A ratio times a power of two, as a ratio. -/
def scaleTwo (num den : Nat) (exponent : Int) : Nat × Nat :=
  match exponent with
  | .ofNat n => (num <<< n, den)
  | .negSucc n => (num, den <<< (n + 1))

/-- A ratio times a power of ten, as a ratio. -/
def scaleTen (num den : Nat) (exponent : Int) : Nat × Nat :=
  match exponent with
  | .ofNat n => (num * Nat.pow 10 n, den)
  | .negSucc n => (num, den * Nat.pow 10 (n + 1))

/-- The natural number nearest to a ratio, a tie going to the even one. -/
def roundEven (num den : Nat) : Nat :=
  let floor := num / den
  let twice := 2 * (num % den)
  if twice < den || (twice == den && floor % 2 == 0) then floor else floor + 1

/-! ## Reading -/

/-- The number nearest to a positive ratio, unless it is too great. -/
def ofRatio? (negative : Bool) (num den : Nat) : Option Double :=
  let size : Int := (num.log2 : Int) - den.log2
  -- The mantissa for this exponent lies between `leastNormal` and four times that.
  let low := scaleTwo num den (53 - size)
  let exponent := if low.1 < 2 * leastNormal * low.2 then size - 53 else size - 52
  let exponent := max exponent leastExponent
  let scaled := scaleTwo num den (-exponent)
  let mantissa := roundEven scaled.1 scaled.2
  -- Rounding up may give one bit too many.
  let (mantissa, exponent) :=
    if mantissa == 2 * leastNormal then (leastNormal, exponent + 1) else (mantissa, exponent)
  if exponent ≤ greatestExponent then some (finite negative mantissa exponent) else none

/-- The number nearest to `digits * 10^exponent`, unless it is too great. A number
below `10^-400` is nearest to zero, one of `10^400` and more is too great. -/
def ofDecimal? (negative : Bool) (digits : Nat) (exponent : Int) : Option Double :=
  if digits == 0 then some (finite negative 0 leastExponent)
  else
    let leading : Int := (Nat.toDigits 10 digits).length + exponent
    if leading > 400 then none
    else if leading < -400 then some (finite negative 0 leastExponent)
    else
      let ratio := scaleTen digits 1 exponent
      ofRatio? negative ratio.1 ratio.2

/-! ## Writing -/

/-- The fewest digits that read back as `mantissa * 2^exponent`: tries the
multiples of `10^place` for one place after the other. Distances are measured in
quarters of the mantissa's unit, where the numbers that read back extend by two
to each side, or below by one if the mantissa is the least of its exponent; the
ends count if the mantissa is even. -/
def shortestFrom (mantissa : Nat) (exponent : Int) (place : Int) : Nat → Nat × Int
  | 0 => (mantissa, 0)
  | fuel + 1 =>
    let ratio := scaleTwo 1 1 (exponent - 2)
    let (num, den) := scaleTen ratio.1 ratio.2 (-place)
    let value := 4 * mantissa * num
    let below := if mantissa == leastNormal && exponent > leastExponent then 1 else 2
    let low := (4 * mantissa - below) * num
    let high := (4 * mantissa + 2) * num
    let readsBack (digits : Nat) : Bool :=
      if mantissa % 2 == 0 then low ≤ digits * den && digits * den ≤ high
      else low < digits * den && digits * den < high
    let down := value / den
    let up := down + 1
    let upNearer : Bool := (2 * down + 1) * den ≤ 2 * value
    match readsBack down, readsBack up with
    | true, true => (if upNearer then up else down, place)
    | true, false => (down, place)
    | false, true => (up, place)
    | false, false => shortestFrom mantissa exponent (place - 1) fuel

/-- The fewest digits of a number, and the power of ten that they count. The first
place tried is above the first digit, and seventeen digits are enough. -/
def shortest (mantissa : Nat) (exponent : Int) : Nat × Int :=
  let bits : Int := mantissa.log2 + exponent + 1
  shortestFrom mantissa exponent (bits * 30103 / 100000 + 2) 24

/-- Digits that count a power of ten, written positionally with at least one
digit on both sides of the point. -/
def positional (digits : List Char) (place : Int) : List Char :=
  match place with
  | .ofNat n => digits ++ List.replicate n '0' ++ ['.', '0']
  | .negSucc n =>
    let places := n + 1
    let padded := List.replicate (places + 1 - digits.length) '0' ++ digits
    let whole := padded.length - places
    padded.take whole ++ '.' :: padded.drop whole

/-- The text of a number. -/
def text : Double → String
  | finite negative mantissa exponent =>
    let sign := if negative then ['-'] else []
    let digits :=
      if mantissa == 0 then ['0', '.', '0']
      else
        let (digits, place) := shortest mantissa exponent
        positional (Nat.toDigits 10 digits) place
    String.ofList (sign ++ digits)
  | infinite negative => if negative then "-inf" else "inf"
  | notANumber => "NaN"

end Double

end StackMachine
