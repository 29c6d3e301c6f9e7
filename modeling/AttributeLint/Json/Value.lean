/-!
# JSON values

A JSON value as the reader delivers it. Integers and reals are different kinds: a number with a
fraction or an exponent is a real, whatever its value. The fields of an object keep the order in
which their keys first appeared.
-/

namespace AttributeLint

/-- A JSON value. -/
inductive Json where
  | null
  | bool (b : Bool)
  | int (n : Int)
  | real (x : Float)
  | str (s : String)
  | arr (items : List Json)
  | obj (fields : List (String × Json))
  deriving Inhabited, Repr

namespace Json

/-- The value under a key of an object; nothing for a missing key or another kind of value. -/
def field? (v : Json) (key : String) : Option Json :=
  match v with
  | .obj fields => fields.lookup key
  | _ => none

/-- A value counts as set unless it is null, false, a zero, or empty. -/
def isSet : Json → Bool
  | .null => false
  | .bool b => b
  | .int n => n != 0
  | .real x => x != 0
  | .str s => s != ""
  | .arr items => !items.isEmpty
  | .obj fields => !fields.isEmpty

/-- The name that messages give to the kind of a value. -/
def kindName : Json → String
  | .null => "NoneType"
  | .bool _ => "bool"
  | .int _ => "int"
  | .real _ => "float"
  | .str _ => "str"
  | .arr _ => "list"
  | .obj _ => "dict"

end Json

end AttributeLint
