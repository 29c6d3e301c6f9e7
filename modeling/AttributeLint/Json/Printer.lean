import AttributeLint.Decimal.Shortest
import AttributeLint.Json.Value
import AttributeLint.Limits
import AttributeLint.Text.Hex

/-!
# JSON text

Two layouts of one format. The compact layout puts a value on one line with a blank after each
comma and colon; the indented one gives each item and field a line of its own, two blanks deeper
than its parent. Both write ASCII only: any other character, and every control character, is an
escape, and a character beyond the basic plane is the pair of its two UTF-16 units. A value with an
integer that is too long has no text.
-/

namespace AttributeLint.Json

/-! ## Strings and numbers -/

/-- The escape of one UTF-16 unit. -/
def unitEscape (n : Nat) : List Char :=
  '\\' :: 'u' :: Text.hexDigits 4 n

/-- One character of a JSON string. -/
def charText (c : Char) : List Char :=
  if c = '\x22' then ['\\', '\x22']
  else if c = '\\' then ['\\', '\\']
  else if c = '\n' then ['\\', 'n']
  else if c = '\r' then ['\\', 'r']
  else if c = '\t' then ['\\', 't']
  else if c = '\x08' then ['\\', 'b']
  else if c = '\x0c' then ['\\', 'f']
  else if 0x20 ≤ c.toNat ∧ c.toNat < 0x7f then [c]
  else if c.toNat < 0x10000 then unitEscape c.toNat
  else
    let n := c.toNat - 0x10000
    unitEscape (0xD800 + n / 0x400) ++ unitEscape (0xDC00 + n % 0x400)

/-- A JSON string in its quotes. -/
def stringText (s : String) : List Char :=
  '\x22' :: s.toList.flatMap charText ++ ['\x22']

/-- A real number; the three values that are not numbers have names. -/
def realText (x : Float) : List Char :=
  match Decimal.Double.ofFloat x with
  | .nan => "NaN".toList
  | .infinite negative => (if negative then "-Infinity" else "Infinity").toList
  | d => d.text.toList

/-- Texts with a separator between neighbours. -/
def separated (sep : List Char) : List (List Char) → List Char
  | [] => []
  | [t] => t
  | t :: rest => t ++ sep ++ separated sep rest

/-! ## The compact layout -/

mutual

/-- A value on one line. -/
def chars : Json → List Char
  | .null => "null".toList
  | .bool b => (if b then "true" else "false").toList
  | .int n => (toString n).toList
  | .real x => realText x
  | .str s => stringText s
  | .arr items => '[' :: separated [',', ' '] (itemChars items) ++ [']']
  | .obj fields => '\x7b' :: separated [',', ' '] (fieldChars fields) ++ ['\x7d']

/-- The items of an array, each on one line. -/
def itemChars : List Json → List (List Char)
  | [] => []
  | v :: rest => chars v :: itemChars rest

/-- The fields of an object, each on one line. -/
def fieldChars : List (String × Json) → List (List Char)
  | [] => []
  | (k, v) :: rest => (stringText k ++ [':', ' '] ++ chars v) :: fieldChars rest

end

/-- A value on one line. -/
def compact (v : Json) : String :=
  String.ofList (chars v)

/-! ## The indented layout -/

/-- A line break and the blanks of a nesting depth. -/
def newline (depth : Nat) : List Char :=
  '\n' :: List.replicate (2 * depth) ' '

/-- Parts between brackets, each on a line of its own one level deeper; nothing between the
brackets of an empty list. -/
def block (opening closing : Char) (depth : Nat) (parts : List (List Char)) : List Char :=
  if parts.isEmpty then [opening, closing]
  else opening :: newline (depth + 1) ++ separated (',' :: newline (depth + 1)) parts
    ++ newline depth ++ [closing]

mutual

/-- A value laid out at a nesting depth. -/
def indentedChars (depth : Nat) : Json → List Char
  | .arr items => block '[' ']' depth (indentedItems (depth + 1) items)
  | .obj fields => block '\x7b' '\x7d' depth (indentedFields (depth + 1) fields)
  | v => chars v

/-- The items of an array at a nesting depth. -/
def indentedItems (depth : Nat) : List Json → List (List Char)
  | [] => []
  | v :: rest => indentedChars depth v :: indentedItems depth rest

/-- The fields of an object at a nesting depth. -/
def indentedFields (depth : Nat) : List (String × Json) → List (List Char)
  | [] => []
  | (k, v) :: rest =>
      (stringText k ++ [':', ' '] ++ indentedChars depth v) :: indentedFields depth rest

end

/-- A value laid out over indented lines. -/
def pretty (v : Json) : String :=
  String.ofList (indentedChars 0 v)

/-! ## Limits -/

mutual

/-- The integers of a value, in the order of its text. -/
def integers : Json → List Int
  | .int n => [n]
  | .arr items => itemIntegers items
  | .obj fields => fieldIntegers fields
  | _ => []

/-- The integers of the items of an array. -/
def itemIntegers : List Json → List Int
  | [] => []
  | v :: rest => integers v ++ itemIntegers rest

/-- The integers of the fields of an object. -/
def fieldIntegers : List (String × Json) → List Int
  | [] => []
  | (_, v) :: rest => integers v ++ fieldIntegers rest

end

/-- The limit that writing a value passes. -/
def writtenExcess? (limits : Limits) (v : Json) : Option Excess :=
  v.integers.findSome? limits.ofInt?

end AttributeLint.Json
