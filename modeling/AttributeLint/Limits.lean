/-!
# Limits of the machine

Integers are unbounded and values nest without end, but the texts that hold them are read and made
by a machine that may be told how long an integer can be in a text, how deep values can nest, and
how much it has memory for. A value beyond a limit is not malformed: reading or making its text
stops where the limit is passed, whatever follows.

Integers that come with an input are measured. Counts of what is in memory are not: no limit that
can be set is below the digits of such a count.
-/

namespace AttributeLint

/-- How much the machine takes; nothing is limited unless it is said. -/
structure Limits where
  /-- The most digits of an integer in a text; zero if there is no limit. -/
  digits : Nat := 0
  /-- The most containers around a value: its own included where it is read, and those outside it
  where a message shows it. -/
  depth : Option Nat := none
  /-- The most blanks in a row for which there is memory. -/
  blanks : Option Nat := none
  deriving DecidableEq, Repr

/-- A limit that is passed. -/
inductive Excess where
  /-- An integer that is read has too many digits. -/
  | digits (limit count : Nat)
  /-- An integer to be written has too many digits. -/
  | writtenDigits (limit : Nat)
  /-- An array opens too deep. -/
  | arrayDepth
  /-- An object opens too deep. -/
  | objectDepth
  /-- A value to be shown lies too deep. -/
  | shownDepth
  deriving DecidableEq, Repr

/-- The wording of an excess. -/
def Excess.message : Excess → String
  | .digits limit count =>
      "Exceeds the limit (" ++ toString limit ++ " digits) for integer string conversion: "
        ++ "value has " ++ toString count ++ " digits; "
        ++ "use sys.set_int_max_str_digits() to increase the limit"
  | .writtenDigits limit =>
      "Exceeds the limit (" ++ toString limit ++ " digits) for integer string conversion; "
        ++ "use sys.set_int_max_str_digits() to increase the limit"
  | .arrayDepth =>
      "maximum recursion depth exceeded while decoding a JSON array from a unicode string"
  | .objectDepth =>
      "maximum recursion depth exceeded while decoding a JSON object from a unicode string"
  | .shownDepth => "maximum recursion depth exceeded while getting the repr of an object"

/-- The number of digits of an integer, its sign aside. -/
def digitCount (n : Int) : Nat :=
  (Nat.toDigits 10 n.natAbs).length

namespace Limits

/-- May an integer in a text have so many digits? -/
def allowsDigits (l : Limits) (count : Nat) : Bool :=
  decide (l.digits = 0 ∨ count ≤ l.digits)

/-- The excess of an integer that is read and has so many digits. -/
def ofDigits? (l : Limits) (count : Nat) : Option Excess :=
  if l.allowsDigits count then none else some (.digits l.digits count)

/-- The excess of an integer that is to be written. -/
def ofInt? (l : Limits) (n : Int) : Option Excess :=
  if l.allowsDigits (digitCount n) then none else some (.writtenDigits l.digits)

/-- May one more container open inside so many others? -/
def allowsDepth (l : Limits) (around : Nat) : Bool :=
  match l.depth with
  | none => true
  | some limit => decide (around < limit)

/-- The excess of a value that is to be shown inside so many containers. -/
def ofLevel? (l : Limits) (around : Nat) : Option Excess :=
  match l.depth with
  | none => none
  | some limit => if limit < around then some .shownDepth else none

/-- Is there memory for so many blanks in a row? -/
def allowsBlanks (l : Limits) (count : Nat) : Bool :=
  match l.blanks with
  | none => true
  | some limit => decide (count ≤ limit)

end Limits

end AttributeLint
