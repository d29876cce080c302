import Dispatch.Toml.Value

/-!
# TOML numbers, dates and truth values

These values are words without quotes. The characters that can stand in one are taken together, and
the word as a whole is then judged. The one exception is a date with a time behind a space.

## Main definitions

* `ungroup?` — the digits of a number without the underscores between them
* `integer?`, `float?` — the two kinds of number
* `isDateTime` — a date, a time, or a date and a time
* `Value.ofWord?` — the value that a word stands for
* `scalarWord` — the word at the beginning of a text
-/

set_option autoImplicit false

namespace Dispatch.Toml

/-- The digits of a group, between any two of which one underscore may stand. -/
def ungroup? (isDigit : Char → Bool) : List Char → Option (List Char)
  | [] => none
  | [c] => if isDigit c then some [c] else none
  | c :: '_' :: rest => if isDigit c then (ungroup? isDigit rest).map (c :: ·) else none
  | c :: rest => if isDigit c then (ungroup? isDigit rest).map (c :: ·) else none

/-- The value of a digit in any base up to sixteen. -/
def digitValue (c : Char) : Nat :=
  if c.isDigit then c.toNat - '0'.toNat
  else if c.isLower then c.toNat - 'a'.toNat + 10
  else c.toNat - 'A'.toNat + 10

/-- The number that digits denote. -/
def numeral (base : Nat) (digits : List Char) : Nat :=
  digits.foldl (fun n c => base * n + digitValue c) 0

/-- Whether a character is a digit of a base. -/
def isDigitOf (base : Nat) (c : Char) : Bool :=
  (c.isDigit || ('a' ≤ c && c ≤ 'f') || ('A' ≤ c && c ≤ 'F')) && digitValue c < base

/-- The digits of a decimal integer, which has no zero in front. -/
def decimalDigits? (s : List Char) : Option (List Char) := do
  let digits ← ungroup? Char.isDigit s
  match digits with
  | '0' :: _ :: _ => none
  | digits => some digits

/-- The sign of a number, and what follows it. -/
def splitSign : List Char → Bool × List Char
  | '-' :: rest => (true, rest)
  | '+' :: rest => (false, rest)
  | s => (false, s)

/-- An integer of 64 bits with a sign. -/
def bounded? (value : Int) : Option Int :=
  if -9223372036854775808 ≤ value && value ≤ 9223372036854775807 then some value else none

/-- An integer, in decimal with a sign or in another base without one. -/
def integer? : List Char → Option Int
  | '0' :: 'x' :: rest => do bounded? (numeral 16 (← ungroup? (isDigitOf 16) rest))
  | '0' :: 'o' :: rest => do bounded? (numeral 8 (← ungroup? (isDigitOf 8) rest))
  | '0' :: 'b' :: rest => do bounded? (numeral 2 (← ungroup? (isDigitOf 2) rest))
  | s => do
    let (negative, rest) := splitSign s
    let value : Int := numeral 10 (← decimalDigits? rest)
    bounded? (if negative then -value else value)

/-- The power of ten behind the mark of an exponent; nothing at all means the power zero. -/
def exponent? : List Char → Option Int
  | [] => some 0
  | mark :: rest =>
    if mark == 'e' || mark == 'E' then do
      let (negative, rest) := splitSign rest
      let value : Int := numeral 10 (← ungroup? Char.isDigit rest)
      return if negative then -value else value
    else none

/-- Whether a character belongs to a group of decimal digits. -/
def inGroup (c : Char) : Bool := c.isDigit || c == '_'

/-- A decimal number with a fraction, an exponent or both, as sign, digits and power of ten. -/
def decimal? (s : List Char) : Option (Bool × Nat × Int) := do
  let (negative, rest) := splitSign s
  let whole ← decimalDigits? (rest.takeWhile inGroup)
  match rest.dropWhile inGroup with
  | [] => none
  | '.' :: rest =>
    let fraction ← ungroup? Char.isDigit (rest.takeWhile inGroup)
    let power ← exponent? (rest.dropWhile inGroup)
    return (negative, numeral 10 (whole ++ fraction), power - fraction.length)
  | rest => return (negative, numeral 10 whole, ← exponent? rest)

/-- A number with a fraction or an exponent. One that is too great is refused, but only when it is
positive. -/
def float? (s : List Char) : Option Binary64 := do
  let (negative, digits, power) ← decimal? s
  let value := Binary64.ofDecimal negative digits power
  if value = .infinity false then none else some value

/-- The number that two digits denote. -/
def twoDigits? : List Char → Option Nat
  | [a, b] => if a.isDigit && b.isDigit then some (numeral 10 [a, b]) else none
  | _ => none

/-- Whether a year has a 29 February. -/
def isLeap (year : Nat) : Bool := year % 4 == 0 && (year % 100 != 0 || year % 400 == 0)

/-- The number of days of a month. -/
def monthLength (year month : Nat) : Nat :=
  if month == 2 then (if isLeap year then 29 else 28)
  else if month == 4 || month == 6 || month == 9 || month == 11 then 30
  else 31

/-- Whether a text is a date. -/
def isDate : List Char → Bool
  | [a, b, c, d, '-', m, n, '-', x, y] =>
    [a, b, c, d].all Char.isDigit &&
      match twoDigits? [m, n], twoDigits? [x, y] with
      | some month, some day =>
        1 ≤ month && month ≤ 12 && 1 ≤ day &&
          day ≤ monthLength (numeral 10 [a, b, c, d]) month
      | _, _ => false
  | _ => false

/-- Whether a text is the difference to universal time, if it has one at all. -/
def isOffset : List Char → Bool
  | [] => true
  | ['Z'] => true
  | ['z'] => true
  | [sign, h, i, ':', m, n] =>
    (sign == '+' || sign == '-') && (twoDigits? [h, i]).any (· ≤ 23) &&
      (twoDigits? [m, n]).any (· ≤ 59)
  | _ => false

/-- Whether a text is a time of the day, perhaps with fractions of a second and, where `zoned` says
so, perhaps with an offset. -/
def isTime (zoned : Bool) : List Char → Bool
  | h :: i :: ':' :: m :: n :: ':' :: s :: t :: rest =>
    (twoDigits? [h, i]).any (· ≤ 23) && (twoDigits? [m, n]).any (· ≤ 59) &&
      (twoDigits? [s, t]).any (· ≤ 60) &&
      (let zone :=
        match rest with
        | '.' :: d :: rest => if d.isDigit then rest.dropWhile Char.isDigit else '.' :: rest
        | rest => rest
      if zoned then isOffset zone else zone.isEmpty)
  | _ => false

/-- Whether a text is a date, a time, or a date and a time. -/
def isDateTime (s : List Char) : Bool :=
  isDate s || isTime false s ||
    (isDate (s.take 10) &&
      match s.drop 10 with
      | mark :: time => (mark == 'T' || mark == 't' || mark == ' ') && isTime true time
      | [] => false)

/-- The numbers that are not finite, with or without a sign. -/
def special? (s : List Char) : Option Binary64 :=
  let (negative, rest) := splitSign s
  if rest = ['i', 'n', 'f'] then some (.infinity negative)
  else if rest = ['n', 'a', 'n'] then some .notANumber
  else none

/-- The value that a word stands for. -/
def Value.ofWord? (word : List Char) : Option Value :=
  if word = ['t', 'r', 'u', 'e'] then some (.boolean true)
  else if word = ['f', 'a', 'l', 's', 'e'] then some (.boolean false)
  else if isDateTime word then some (.dateTime (String.ofList word))
  else
    ((float? word).map Value.float).or
      (((integer? word).map Value.integer).or ((special? word).map Value.float))

/-- Whether a character may stand in a word. -/
def inWord (c : Char) : Bool :=
  c.isAlphanum || c == '_' || c == '+' || c == '-' || c == '.' || c == ':'

/-- The word at the beginning of a text, and the rest. A date takes with it a word behind one space
that begins with a digit. -/
def scalarWord (s : List Char) : List Char × List Char :=
  let word := s.takeWhile inWord
  match s.dropWhile inWord with
  | ' ' :: c :: rest =>
    if isDate word && c.isDigit then
      (word ++ ' ' :: (c :: rest).takeWhile inWord, (c :: rest).dropWhile inWord)
    else (word, ' ' :: c :: rest)
  | rest => (word, rest)

end Dispatch.Toml
