/-!
# Doubles

The value of a double, read off its bit pattern: not a number, an infinity, a zero, or a sign and a
positive binary number `m · 2^q`. All exact arithmetic on doubles starts here.
-/

namespace AttributeLint.Decimal

/-- A positive binary number `mantissa · 2^exponent`. -/
structure Binary where
  mantissa : Nat
  exponent : Int
  /-- The next smaller number is half a step away, because `mantissa` is the least of its binade. -/
  lowEdge : Bool
  deriving DecidableEq, Repr

/-- The kinds of double. -/
inductive Double where
  | nan
  | infinite (negative : Bool)
  | zero (negative : Bool)
  | finite (negative : Bool) (magnitude : Binary)
  deriving DecidableEq, Repr

/-- Reads sign, exponent and fraction off the bit pattern of a double. -/
def Double.ofFloat (x : Float) : Double :=
  let bits := x.toBits.toNat
  let negative := decide (Nat.pow 2 63 ≤ bits)
  let biased : Nat := (bits / Nat.pow 2 52) % Nat.pow 2 11
  let fraction : Nat := bits % Nat.pow 2 52
  if biased = 2047 then
    if fraction = 0 then .infinite negative else .nan
  else if biased = 0 then
    if fraction = 0 then .zero negative else .finite negative ⟨fraction, -1074, false⟩
  else
    .finite negative ⟨Nat.pow 2 52 + fraction, (biased : Int) - 1075, fraction = 0 && biased != 1⟩

end AttributeLint.Decimal
