import AttributeLint.Assoc
import AttributeLint.Json.Token

/-!
# Reading JSON

A reader that walks once over the lexemes of a text with a stack of the containers it is inside.
What may come next is a `Mode`; what a finished value completes is the top `Frame`. The first lexeme
that does not fit its mode is the error, reported where it starts, or where its own damage is if the
mode would have taken a string. Half of a surrogate pair in a string is read as U+FFFD (`unitChar`).
-/

namespace AttributeLint.Json

/-- A container that is still open. -/
inductive Frame where
  /-- An array; its items so far, latest first. -/
  | items (done : List Json)
  /-- An object; its fields so far, and the key whose value is being read. -/
  | fields (done : List (String × Json)) (key : String)

/-- What may come next. -/
inductive Mode where
  /-- A value. -/
  | value
  /-- A value or the end of the array just opened. -/
  | firstItem
  /-- A key or the end of the object just opened. -/
  | firstKey
  /-- A key, after a comma; the fields so far. -/
  | nextKey (done : List (String × Json))
  /-- A colon, after a key. -/
  | colon (done : List (String × Json)) (key : String)
  /-- A comma or the end of the container around the value just read. -/
  | after (v : Json)

/-- A flaw and the number of characters left in the text where it is. -/
structure Failure where
  flaw : Flaw
  left : Nat
  deriving DecidableEq, Repr

/-- The place of a lexeme where a string would fit: its own damage comes first. -/
def failString (flaw : Flaw) (l : Lexeme) : Failure :=
  match l.token with
  | .damaged inner left => ⟨inner, left⟩
  | _ => ⟨flaw, l.left⟩

/-- The limit that a value would pass whose first lexeme this is. -/
def excess? (limits : Limits) (stack : List Frame) (l : Lexeme) : Option Excess :=
  match l.token with
  | .openArray => if limits.allowsDepth stack.length then none else some .arrayDepth
  | .openObject => if limits.allowsDepth stack.length then none else some .objectDepth
  | .scalar (.int _) => limits.ofDigits? l.digitCount
  | _ => none

/-- A value starts, where one is allowed. -/
def startValue (limits : Limits) (stack : List Frame) (l : Lexeme) :
    Except Failure (Mode × List Frame) :=
  match excess? limits stack l, l.token with
  | some e, _ => .error ⟨.excess e, l.left⟩
  | none, .openArray => .ok (.firstItem, .items [] :: stack)
  | none, .openObject => .ok (.firstKey, stack)
  | none, .scalar v => .ok (.after v, stack)
  | none, _ => .error (failString .value l)

/-- A key starts, where one is allowed. -/
def startKey (done : List (String × Json)) (stack : List Frame) (l : Lexeme) :
    Except Failure (Mode × List Frame) :=
  match l.token with
  | .scalar (.str key) => .ok (.colon done key, stack)
  | _ => .error (failString .key l)

/-- A lexeme after a finished value. -/
def afterValue (v : Json) (stack : List Frame) (l : Lexeme) : Except Failure (Mode × List Frame) :=
  match stack, l.token with
  | [], _ => .error ⟨.extraData, l.left⟩
  | .items done :: rest, .comma => .ok (.value, .items (v :: done) :: rest)
  | .items done :: rest, .closeArray => .ok (.after (.arr (v :: done).reverse), rest)
  | .fields done key :: rest, .comma => .ok (.nextKey (Assoc.put key v done), rest)
  | .fields done key :: rest, .closeObject => .ok (.after (.obj (Assoc.put key v done)), rest)
  | _ :: _, _ => .error ⟨.comma, l.left⟩

/-- One lexeme. -/
def step (limits : Limits) (mode : Mode) (stack : List Frame) (l : Lexeme) :
    Except Failure (Mode × List Frame) :=
  match mode, l.token with
  | .value, _ => startValue limits stack l
  | .firstItem, .closeArray => .ok (.after (.arr []), stack.tail)
  | .firstItem, _ => startValue limits stack l
  | .firstKey, .closeObject => .ok (.after (.obj []), stack)
  | .firstKey, _ => startKey [] stack l
  | .nextKey done, _ => startKey done stack l
  | .colon done key, .colon => .ok (.value, .fields done key :: stack)
  | .colon _ _, _ => .error ⟨.colon, l.left⟩
  | .after v, _ => afterValue v stack l

/-- The end of the text. -/
def finish (mode : Mode) (stack : List Frame) : Except Failure Json :=
  match mode, stack with
  | .after v, [] => .ok v
  | .after _, _ :: _ => .error ⟨.comma, 0⟩
  | .value, _ => .error ⟨.value, 0⟩
  | .firstItem, _ => .error ⟨.value, 0⟩
  | .firstKey, _ => .error ⟨.key, 0⟩
  | .nextKey _, _ => .error ⟨.key, 0⟩
  | .colon _ _, _ => .error ⟨.colon, 0⟩

/-- Walks over the lexemes. -/
def assemble (limits : Limits) (mode : Mode) (stack : List Frame) :
    List Lexeme → Except Failure Json
  | [] => finish mode stack
  | l :: rest =>
      match step limits mode stack l with
      | .error e => .error e
      | .ok (mode', stack') => assemble limits mode' stack' rest

/-- Why and where a text is not JSON; positions count characters from zero. -/
structure ReadError where
  flaw : Flaw
  position : Nat
  deriving DecidableEq, Repr

/-- Reads a text as one JSON value, within limits. -/
def readWithin (limits : Limits) (text : String) : Except ReadError Json :=
  let cs := text.toList
  if cs.head? = some (Char.ofNat 0xFEFF) then .error ⟨.byteOrderMark, 0⟩
  else
    match assemble limits .value [] (tokens cs) with
    | .ok v => .ok v
    | .error e => .error ⟨e.flaw, cs.length - e.left⟩

/-- Reads a text as one JSON value. -/
def read (text : String) : Except ReadError Json :=
  readWithin {} text

/-- The line of a position, from one. -/
def lineOf (text : String) (position : Nat) : Nat :=
  (text.toList.take position).count '\n' + 1

/-- The column of a position in its line, from one. -/
def columnOf (text : String) (position : Nat) : Nat :=
  ((text.toList.take position).reverse.takeWhile (· != '\n')).length + 1

/-- The wording of an error in a text, with its place. -/
def ReadError.message (text : String) (e : ReadError) : String :=
  e.flaw.message ++ ": line " ++ toString (lineOf text e.position) ++ " column "
    ++ toString (columnOf text e.position) ++ " (char " ++ toString e.position ++ ")"

end AttributeLint.Json
