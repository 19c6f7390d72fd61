import ScoreSynth.Text.Numeral

/-!
# Fractional numbers in decimal

A fractional number is an optional sign followed by digits with at most one
decimal point among or around them, at least one digit in all, and an optional
power of ten: the letter `e` in either case, an optional sign and digits.  The
words `inf`, `infinity` and `nan`, in any mixture of cases and with an optional
sign, stand for the values that have no digits.
-/

namespace ScoreSynth.Decimal

/-- An optional sign.  The result says whether it is a minus. -/
def sign (text : List Char) : Bool × List Char :=
  match text with
  | '-' :: others => (true, others)
  | '+' :: others => (false, others)
  | _ => (false, text)

/-- The power of ten at the end of a number; nothing stands for the power zero. -/
def power? (text : List Char) : Option Int :=
  match text with
  | [] => some 0
  | letter :: others =>
      if letter = 'e' ∨ letter = 'E' then
        let (negative, digits) := sign others
        (Numeral.digits? digits).map fun magnitude =>
          if negative then -(magnitude : Int) else magnitude
      else none

/-- The digits before and after the point, and what follows them. -/
def significand (text : List Char) : List Char × List Char × List Char :=
  let whole := text.takeWhile Char.isDigit
  match text.dropWhile Char.isDigit with
  | '.' :: others =>
      (whole, others.takeWhile Char.isDigit, others.dropWhile Char.isDigit)
  | others => (whole, [], others)

/-- A number without a sign, rounded to the nearest double. -/
def magnitude? (text : List Char) : Option Float :=
  let (whole, fraction, others) := significand text
  let digits := whole ++ fraction
  if digits.isEmpty then none
  else (power? others).map fun power =>
    let exponent : Int := power - fraction.length
    Float.ofScientific (Nat.ofDigitChars 10 digits 0) (exponent < 0) exponent.natAbs

/-- The values that are written as words. -/
def word? (text : List Char) : Option Float :=
  let lower := text.map Char.toLower
  if lower = "inf".toList ∨ lower = "infinity".toList then some (1 / 0)
  else if lower = "nan".toList then some (0 / 0)
  else none

/-- Read a fractional number. -/
def number? (text : List Char) : Option Float :=
  let (negative, unsigned) := sign text
  ((word? unsigned).or (magnitude? unsigned)).map fun magnitude =>
    if negative then -magnitude else magnitude

end ScoreSynth.Decimal
