import AttributeLint.Text.Hex
import AttributeLint.Text.Printable

/-!
# Quoted text in messages

How messages show a text so that its ends and its invisible characters can be seen. Single quotes
enclose it; double quotes do when it contains a single quote and no double one. The backslash, the
enclosing quote and three line characters have short escapes, and every other character that is not
printable is written by its code in the narrowest of three widths.
-/

namespace AttributeLint.Text

/-- The quote that encloses a text. -/
def enclosingQuote (cs : List Char) : Char :=
  if cs.contains '\x27' && !cs.contains '\x22' then '\x22' else '\x27'

/-- The escape of a character by its code. -/
def codeEscape (n : Nat) : List Char :=
  if n < 0x100 then '\\' :: 'x' :: hexDigits 2 n
  else if n < 0x10000 then '\\' :: 'u' :: hexDigits 4 n
  else '\\' :: 'U' :: hexDigits 8 n

/-- One character inside quotes. -/
def quotedChar (quote c : Char) : List Char :=
  if c = quote ∨ c = '\\' then ['\\', c]
  else if c = '\n' then ['\\', 'n']
  else if c = '\r' then ['\\', 'r']
  else if c = '\t' then ['\\', 't']
  else if isPrintable c then [c]
  else codeEscape c.toNat

/-- A text in quotes. -/
def quoted (s : String) : String :=
  let quote := enclosingQuote s.toList
  String.ofList (quote :: s.toList.flatMap (quotedChar quote) ++ [quote])

end AttributeLint.Text
