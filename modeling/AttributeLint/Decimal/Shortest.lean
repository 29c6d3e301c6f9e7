import AttributeLint.Decimal.Double

/-!
# The shortest decimal of a binary number

A finite double is `m · 2^q`. The reals that round to it form an interval around it, whose ends
belong to it exactly when `m` is even. Among the decimals of that interval, the one with the fewest
digits is wanted, and of those the nearest. The search looks at 1, 2, ... digits in turn; on each
decimal grid only the two neighbours of the value can be the nearest, and the test is exact
arithmetic on natural numbers.
-/

namespace AttributeLint.Decimal

/-- A positive decimal number `digits · 10^exponent`. -/
structure Scaled where
  digits : Nat
  exponent : Int
  deriving DecidableEq, Repr

/-- Twice the binary number and the ends of its rounding interval, over one common denominator:
`(low, value, high, denominator)`, each scaled by four. -/
def interval (b : Binary) : Nat × Nat × Nat × Nat :=
  let low := if b.lowEdge then 4 * b.mantissa - 1 else 4 * b.mantissa - 2
  let scale (n : Nat) : Nat := n * Nat.pow 2 b.exponent.toNat
  (scale low, scale (4 * b.mantissa), scale (4 * b.mantissa + 2), 4 * Nat.pow 2 (-b.exponent).toNat)

/-- The grid point `d · 10^k` rounds back to `b`. -/
def readsBack (b : Binary) (d : Nat) (k : Int) : Bool :=
  let (low, _, high, den) := interval b
  let point := d * Nat.pow 10 k.toNat * den
  let unit := Nat.pow 10 (-k).toNat
  if b.mantissa % 2 = 0 then decide (low * unit ≤ point ∧ point ≤ high * unit)
  else decide (low * unit < point ∧ point < high * unit)

/-- The nearest point of the grid of multiples of `10^k` that rounds back to `b`, if one does; the
even one of two equally near. -/
def onGrid (b : Binary) (k : Int) : Option Nat :=
  let (_, value, _, den) := interval b
  let num := value * Nat.pow 10 (-k).toNat
  let unit := den * Nat.pow 10 k.toNat
  let below := num / unit
  let rest := num % unit
  let near := if 2 * rest < unit then below
    else if unit < 2 * rest then below + 1
    else if below % 2 = 0 then below else below + 1
  let other := if near = below then below + 1 else below
  if readsBack b near k then some near
  else if readsBack b other k then some other
  else none

/-- The number of decimal digits of `n`. -/
def width (n : Nat) : Nat :=
  (Nat.toDigits 10 n).length

/-- The exponent of the leading decimal digit of a positive binary number. -/
def leading (b : Binary) : Int :=
  let (_, value, _, den) := interval b
  if den ≤ value then (width (value / den) : Int) - 1
  else -(width ((den + value - 1) / value - 1) : Int)

/-- Tries grids from `k` downwards, `fuel` of them. -/
def search (b : Binary) : Nat → Int → Option Scaled
  | 0, _ => none
  | fuel + 1, k =>
      match onGrid b k with
      | some d => some ⟨d, k⟩
      | none => search b fuel (k - 1)

/-- Drops trailing zeros of the digits. -/
def strip (d : Scaled) : Nat → Scaled
  | 0 => d
  | fuel + 1 =>
      if d.digits ≠ 0 ∧ d.digits % 10 = 0 then strip ⟨d.digits / 10, d.exponent + 1⟩ fuel else d

/-- The shortest decimal that rounds to `b`, nearest of those. Seventeen digits always suffice. -/
def shortest (b : Binary) : Scaled :=
  match search b 19 (leading b) with
  | some d => strip d 20
  | none => ⟨0, 0⟩

/-! ## Text -/

/-- Digits of a decimal with the point after the first one: `d.ddd`, no point for one digit. -/
def scientific (digits : String) : String :=
  match digits.toList with
  | [] => ""
  | [c] => String.ofList [c]
  | c :: rest => String.ofList (c :: '.' :: rest)

/-- Positional notation of `digits` whose leading digit has exponent `e`; at least one place after
the point. -/
def positional (digits : String) (e : Int) : String :=
  let ds := digits.toList
  if e < 0 then "0." ++ String.ofList (List.replicate (-e - 1).toNat '0' ++ ds)
  else
    let whole := e.toNat + 1
    let left := ds.take whole ++ List.replicate (whole - ds.length) '0'
    let right := ds.drop whole
    String.ofList left ++ "." ++ (if right.isEmpty then "0" else String.ofList right)

/-- An exponent with its sign and at least two digits. -/
def exponentText (e : Int) : String :=
  let n := toString e.natAbs
  (if e < 0 then "e-" else "e+") ++ (if e.natAbs < 10 then "0" ++ n else n)

/-- Text of a positive decimal: positional while the leading digit stands between the fourth place
after the point and the sixteenth before it, scientific otherwise. -/
def decimalText (d : Scaled) : String :=
  let digits := toString d.digits
  let e : Int := d.exponent + (digits.length : Int) - 1
  if -4 ≤ e ∧ e < 16 then positional digits e else scientific digits ++ exponentText e

/-- Text of a double by its shortest decimal. -/
def Double.text : Double → String
  | .nan => "nan"
  | .infinite negative => if negative then "-inf" else "inf"
  | .zero negative => if negative then "-0.0" else "0.0"
  | .finite negative b => (if negative then "-" else "") ++ decimalText (shortest b)

end AttributeLint.Decimal
