/-!
# Lines of text

Two readings of line ends. A text file is read with every line end turned into a line feed. Source
text that is quoted back line by line is cut at all characters that end a line in some convention,
and a line end at the very end of the text starts no further line.
-/

namespace AttributeLint.Text

/-- Turns `\r\n` and then every other `\r` into a line feed. -/
def unifyNewlines : List Char → List Char
  | [] => []
  | '\r' :: '\n' :: rest => '\n' :: unifyNewlines rest
  | '\r' :: rest => '\n' :: unifyNewlines rest
  | c :: rest => c :: unifyNewlines rest

/-- Does the character end a line? -/
def isLineEnd (c : Char) : Bool :=
  let n := c.toNat
  (10 ≤ n && n ≤ 13) || (0x1c ≤ n && n ≤ 0x1e) || n == 0x85 || n == 0x2028 || n == 0x2029

/-- The lines of a text that continues a line whose characters so far are `line`, latest first. -/
def linesAfter (line : List Char) : List Char → List (List Char)
  | [] => if line.isEmpty then [] else [line.reverse]
  | '\r' :: '\n' :: rest => line.reverse :: linesAfter [] rest
  | c :: rest =>
      if isLineEnd c then line.reverse :: linesAfter [] rest else linesAfter (c :: line) rest

/-- The lines of a text, without their ends. -/
def lines (text : String) : List String :=
  (linesAfter [] text.toList).map String.ofList

end AttributeLint.Text
