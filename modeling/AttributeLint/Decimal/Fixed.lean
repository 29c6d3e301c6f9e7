import AttributeLint.Decimal.Double

/-!
# Numbers with one decimal place

The exact value of a double rounded to tenths, a half to the even neighbour, and written with a
point.
-/

namespace AttributeLint.Decimal

/-- The integer nearest to `num / den`, a half to the even neighbour. -/
def roundDiv (num den : Nat) : Nat :=
  let below := num / den
  let rest := num % den
  if 2 * rest < den then below
  else if den < 2 * rest then below + 1
  else if below % 2 = 0 then below else below + 1

/-- A positive binary number in tenths. -/
def Binary.tenths (b : Binary) : Nat :=
  roundDiv (10 * b.mantissa * Nat.pow 2 b.exponent.toNat) (Nat.pow 2 (-b.exponent).toNat)

/-- A number of tenths with a point before the last digit. -/
def tenthsText (negative : Bool) (n : Nat) : String :=
  (if negative then "-" else "") ++ toString (n / 10) ++ "." ++ toString (n % 10)

/-- A double to one place. A negative number keeps its sign when it rounds to zero. -/
def Double.oneDecimal : Double → String
  | .nan => "nan"
  | .infinite negative => if negative then "-inf" else "inf"
  | .zero negative => tenthsText negative 0
  | .finite negative b => tenthsText negative b.tenths

end AttributeLint.Decimal
