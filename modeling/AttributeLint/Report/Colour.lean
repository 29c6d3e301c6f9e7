/-!
# Colours on a terminal

How texts are coloured, and whether they are, is up to the terminal: a report is handed a way of
painting, which it applies to the parts of its text.
-/

namespace AttributeLint.Report

/-- The colours in use. -/
inductive Colour where
  | red
  | green
  | yellow
  | blue
  | white
  deriving DecidableEq, Repr

/-- The weights in use. -/
inductive Weight where
  | bold
  | dark
  deriving DecidableEq, Repr

/-- A way of painting a text in a weight and, if one is given, a colour. -/
abbrev Paint := Option Colour → Weight → String → String

/-- Texts as they are. -/
def unpainted : Paint :=
  fun _ _ text => text

end AttributeLint.Report
