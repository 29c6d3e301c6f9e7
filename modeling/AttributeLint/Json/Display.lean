import AttributeLint.Decimal.Shortest
import AttributeLint.Json.Value
import AttributeLint.Limits
import AttributeLint.Text.Quoted

/-!
# Values as messages show them

The text of a value inside a message. It tells apart what a reader of the message may confuse:
integers from reals, texts from the constants, an empty list from an empty object. A value is shown
from the outside in and from left to right, up to the first integer that is too long or the first
value that lies too deep.
-/

namespace AttributeLint.Json

mutual

/-- The text of a value in a message. -/
def display : Json → String
  | .null => "None"
  | .bool b => if b then "True" else "False"
  | .int n => toString n
  | .real x => (Decimal.Double.ofFloat x).text
  | .str s => Text.quoted s
  | .arr items => "[" ++ ", ".intercalate (displayItems items) ++ "]"
  | .obj fields => "\x7b" ++ ", ".intercalate (displayFields fields) ++ "\x7d"

/-- The texts of the items of a list. -/
def displayItems : List Json → List String
  | [] => []
  | v :: rest => display v :: displayItems rest

/-- The texts of the fields of an object. -/
def displayFields : List (String × Json) → List String
  | [] => []
  | (k, v) :: rest => (Text.quoted k ++ ": " ++ display v) :: displayFields rest

end

mutual

/-- The limit that showing a value inside so many containers passes. -/
def shownExcess? (limits : Limits) (around : Nat) : Json → Option Excess
  | .int n => (limits.ofLevel? around).or (limits.ofInt? n)
  | .arr items => (limits.ofLevel? around).or (itemsExcess? limits (around + 1) items)
  | .obj fields => (limits.ofLevel? around).or (fieldsExcess? limits (around + 1) fields)
  | _ => limits.ofLevel? around

/-- The limit that showing the items of a list passes. -/
def itemsExcess? (limits : Limits) (around : Nat) : List Json → Option Excess
  | [] => none
  | v :: rest => (shownExcess? limits around v).or (itemsExcess? limits around rest)

/-- The limit that showing the fields of an object passes. -/
def fieldsExcess? (limits : Limits) (around : Nat) : List (String × Json) → Option Excess
  | [] => none
  | (_, v) :: rest => (shownExcess? limits around v).or (fieldsExcess? limits around rest)

end

end AttributeLint.Json
