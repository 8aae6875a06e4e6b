import Reckoner.Number.Basic

/-! # Decimals

A decimal is a whole number of digits together with how many of them stand after the
point. Reading a decimal text loses nothing; rounding the decimal to a number is a
separate step.
-/

namespace Reckoner

/-- The value `digits / 10 ^ places`. -/
structure Decimal where
  digits : Nat
  places : Nat
  deriving Repr, DecidableEq

namespace Decimal

/-- The nearest number. -/
def toNumber (d : Decimal) : Number :=
  .round .positive (d.digits * unitsPerOne) (Nat.pow 10 d.places)

/-- Read digits with an optional point and further digits. -/
def ofText (text : List Char) : Decimal :=
  let whole := text.takeWhile Char.isDigit
  let fraction := (text.dropWhile Char.isDigit).drop 1
  ⟨Nat.ofDigitChars 10 (whole ++ fraction) 0, fraction.length⟩

/-- Write the digits, with a point before the last `places` of them and at least one
    digit before the point. -/
def toText (d : Decimal) : List Char :=
  let digits := Nat.toDigits 10 d.digits
  if d.places = 0 then digits
  else
    let padded := List.replicate (d.places + 1 - digits.length) '0' ++ digits
    let whole := padded.length - d.places
    padded.take whole ++ '.' :: padded.drop whole

end Decimal

end Reckoner
