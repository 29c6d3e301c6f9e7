import AttributeLint.Report.Colour

/-!
# Painting by escape codes

The way of painting that the command hands to its reports: codes in front of a text and a reset
behind it.
-/

namespace AttributeLint.Report.Ansi

/-- The code of a colour. -/
def colourCode : Colour → Nat
  | .red => 31
  | .green => 32
  | .yellow => 33
  | .blue => 34
  | .white => 97

/-- The code of a weight. -/
def weightCode : Weight → Nat
  | .bold => 1
  | .dark => 2

/-- The escape sequence of a code. -/
def escape (code : Nat) : String :=
  "\x1b[" ++ toString code ++ "m"

/-- Paints a text by its codes; leaves it alone if painting is off. -/
def paint (on : Bool) : Paint := fun colour weight text =>
  if on then
    escape (weightCode weight) ++ (match colour with
      | some c => escape (colourCode c)
      | none => "") ++ text ++ escape 0
  else text

end AttributeLint.Report.Ansi
