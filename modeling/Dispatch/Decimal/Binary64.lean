/-!
# Binary floating-point numbers in decimal

Numbers of the form `m * 2 ^ q` with 53 bits for `m`, read from decimal and written in decimal. Both
directions are exact arithmetic on natural numbers. Reading takes the nearest number, the even one
of two. Writing takes the fewest digits that read back, and of those the nearest to the number.

## Main definitions

* `Binary64` — the numbers, the infinities and the one value that is no number
* `Binary64.ofDecimal` — the number nearest to a decimal
* `Binary64.shortest` — the shortest decimal that reads back
* `Binary64.text` — the number in positional notation, with a point if it is finite
-/

set_option autoImplicit false

namespace Dispatch

/-- A number with a sign, a mantissa of at most 53 bits and a power of two, or one of the values
that are not finite. -/
inductive Binary64 where
  | notANumber
  | infinity (negative : Bool)
  | finite (negative : Bool) (mantissa : Nat) (exponent : Int)
deriving DecidableEq, Repr

namespace Binary64

/-- The bound of a mantissa of 53 bits. -/
def mantissaBound : Nat := 9007199254740992

/-- The least exponent. -/
def leastExponent : Int := -1074

/-- The greatest exponent. -/
def greatestExponent : Int := 971

/-- A quotient rounded to the nearest integer, a half to the even neighbour. -/
def roundDiv (num den : Nat) : Nat :=
  let q := num / den
  let twice := 2 * (num % den)
  if twice < den then q else if den < twice then q + 1 else q + q % 2

/-- The quotient `num / den` divided by a power of a base, as a numerator and a denominator. -/
def scaled (base num den : Nat) (power : Int) : Nat × Nat :=
  if 0 ≤ power then (num, den * base.pow power.toNat) else (num * base.pow (-power).toNat, den)

/-- The positive number nearest to `num / den`. -/
def nearest (negative : Bool) (num den : Nat) : Binary64 :=
  let guess := max ((num.log2 : Int) - den.log2 - 53) leastExponent
  let (n, d) := scaled 2 num den guess
  let exponent := if mantissaBound ≤ n / d then guess + 1 else guess
  let (n, d) := scaled 2 num den exponent
  let mantissa := roundDiv n d
  let (mantissa, exponent) :=
    if mantissa = mantissaBound then (mantissaBound / 2, exponent + 1) else (mantissa, exponent)
  if greatestExponent < exponent then infinity negative else finite negative mantissa exponent

/-- The number nearest to `digits * 10 ^ exponent`. Decimals far out of range are settled by their
number of digits. -/
def ofDecimal (negative : Bool) (digits : Nat) (exponent : Int) : Binary64 :=
  if digits = 0 then finite negative 0 leastExponent
  else
    let magnitude := exponent + (Nat.toDigits 10 digits).length
    if 400 < magnitude then infinity negative
    else if magnitude < -400 then finite negative 0 leastExponent
    else
      let (num, den) := scaled 10 digits 1 (-exponent)
      nearest negative num den

/-- The greatest power of ten that is at most `num / den`. -/
def decimalMagnitude (num den : Nat) : Int :=
  if den ≤ num then (Nat.toDigits 10 (num / den)).length - 1
  else
    let places := (Nat.toDigits 10 den).length - (Nat.toDigits 10 num).length
    if den ≤ num * Nat.pow 10 places then -places else -(places + 1 : Nat)

/-- The same decimal without a zero at its end, where it has one. -/
def dropZero (decimal : Nat × Int) : Nat × Int :=
  if decimal.1 % 10 = 0 then (decimal.1 / 10, decimal.2 + 1) else decimal

/-- The digits and the power of ten of the shortest decimal that reads back as
`mantissa * 2 ^ exponent`. For each number of digits the two neighbours on that decimal grid are
tried; the first grid with a hit wins, and of two hits the nearer, a tie going up. On the first grid
the upper neighbour may be a ten. -/
def shortest (mantissa : Nat) (exponent : Int) : Nat × Int :=
  let (num, den) := scaled 2 mantissa 1 (-exponent)
  let magnitude := decimalMagnitude num den
  let below := if mantissa = mantissaBound / 2 ∧ leastExponent < exponent then 1 else 2
  let closed := mantissa % 2 == 0
  let onGrid? (places : Nat) : Option (Nat × Int) :=
    let power := magnitude - places
    let (n, d) := scaled 10 num den power
    let low := n / d
    -- four times the distance to the number, in units of its last place
    let reads (candidate : Nat) : Bool :=
      let (c, cd) := scaled 10 candidate 1 (-power)
      let (u, ud) := scaled 2 1 1 (-exponent)
      let value := 4 * c * ud
      let unit := u * cd
      let least := (4 * mantissa - below) * unit
      let greatest := (4 * mantissa + 2) * unit
      if closed then least ≤ value && value ≤ greatest else least < value && value < greatest
    match reads low, reads (low + 1) with
    | true, true => some (if 2 * (n % d) < d then low else low + 1, power)
    | true, false => some (low, power)
    | false, true => some (low + 1, power)
    | false, false => none
  dropZero (((List.range 17).findSome? onGrid?).getD (num / den, 0))

/-- Digits times a power of ten in positional notation, with a point and at least one digit on
either side of it. -/
def positional (digits : List Char) (power : Int) : List Char :=
  if 0 ≤ power then digits ++ List.replicate power.toNat '0' ++ ['.', '0']
  else
    let places := (-power).toNat
    let padded := List.leftpad (places + 1) '0' digits
    padded.take (padded.length - places) ++ '.' :: padded.drop (padded.length - places)

/-- The number in positional notation. A finite one always has a point; the others are named, and
only an infinity has a sign. -/
def text : Binary64 → String
  | notANumber => "NaN"
  | infinity negative => (if negative then "-" else "") ++ "inf"
  | finite negative mantissa exponent =>
    let body :=
      if mantissa = 0 then ['0', '.', '0']
      else
        let (digits, power) := shortest mantissa exponent
        positional (Nat.toDigits 10 digits) power
    (if negative then "-" else "") ++ String.ofList body

end Binary64

end Dispatch
