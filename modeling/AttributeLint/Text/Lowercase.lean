import AttributeLint.Text.Cased
import AttributeLint.Text.CaseIgnorable
import AttributeLint.Text.LowercaseRows

/-!
# Lowercase text

The full lowercase mapping of text. Three rules make it up: most characters map one to one by
`lowercaseRows`; the dotted capital I maps onto the letter and a combining dot; and a capital sigma
maps onto the final form at the end of a word and onto the medial form elsewhere. Whether a sigma
ends a word depends on the nearest characters on both sides that are not case-ignorable, so the
mapping is a function of the whole text and not of its characters one by one.
-/

namespace AttributeLint.Text

/-- Code point of the capital sigma. -/
def capitalSigma : Char := 'Σ'

/-- Code point of the capital I with a dot above. -/
def dottedCapitalI : Char := 'İ'

/-- The lowercase code point by the first row that ends at or after `n`. -/
def lowercaseCode : List LowercaseRow → Nat → Nat
  | [], n => n
  | row :: rest, n =>
      if n ≤ row.last then
        if row.first ≤ n ∧ (n - row.first) % row.step = 0 then row.target + (n - row.first) else n
      else lowercaseCode rest n

/-- The lowercase form of one character, context aside. -/
def lowercaseChar (c : Char) : List Char :=
  if c = dottedCapitalI then ['i', Char.ofNat 0x307]
  else [Char.ofNat (lowercaseCode lowercaseRows c.toNat)]

/-- The nearest character that is not case-ignorable is a cased letter. -/
def nextIsCased (cs : List Char) : Bool :=
  match cs.dropWhile isCaseIgnorable with
  | [] => false
  | c :: _ => isCased c

/-- A sigma ends a word when a letter stands before it and none after it. `before` is the text on
the left, nearest character first. -/
def endsWord (before after : List Char) : Bool :=
  nextIsCased before && !nextIsCased after

/-- Lowercase of a text whose left neighbours are `before`, nearest first. -/
def lowercaseAfter (before : List Char) : List Char → List Char
  | [] => []
  | c :: rest =>
      (if c = capitalSigma then (if endsWord before rest then ['ς'] else ['σ'])
       else lowercaseChar c) ++ lowercaseAfter (c :: before) rest

/-- Lowercase of a whole text. -/
def lowercase (cs : List Char) : List Char :=
  lowercaseAfter [] cs

end AttributeLint.Text
