import AttributeLint.Diagnostic
import AttributeLint.Report.Colour
import AttributeLint.Text.Lines

/-!
# Diagnostics for readers

Two renderings of one diagnostic. The plain one is its line and a hint. The one for terminals has a
headline, the place, the source line with the name underlined if the source is known, the hint, and
the plain line last. Nothing is shown of a diagnostic that cannot be rendered: one that is short of
a value, whose place is too long to be written, or under whose source line the blanks do not fit.
-/

namespace AttributeLint.Report

/-- Source texts by file name. -/
abbrev Sources := List (String × String)

/-- The line of a source, counted from one, if there is such a line. -/
def sourceLine (sources : Sources) (file : String) (line : Int) : Option String :=
  match sources.lookup file with
  | none => none
  | some text => if line < 1 then none else (Text.lines text)[(line - 1).toNat]?

/-- The colour of a severity. -/
def severityColour : Severity → Colour
  | .error => .red
  | .warning => .yellow
  | .information => .white

/-- A text repeated. -/
def repeated (n : Nat) (c : Char) : String :=
  String.ofList (List.replicate n c)

/-- The plain rendering. -/
def plain (limits : Limits) (d : Diagnostic) : Except Fault String := do
  let line ← d.line limits
  let hint ← d.hint
  return line ++ "\n" ++ (match hint with
    | some h => "  help: " ++ h ++ "\n"
    | none => "")

/-- Positions in a line are counted in words of 64 bits with a sign. -/
def indexBound : Int := Int.pow 2 63

section terminal

variable (limits : Limits) (paint : Paint)

/-- The blanks before a column, counted from one. -/
def indent (column : Int) : Except Fault String :=
  if column - 1 < -indexBound ∨ indexBound ≤ column - 1 then .error .columnBeyondIndex
  else if limits.allowsBlanks (column - 1).toNat then .ok (repeated (column - 1).toNat ' ')
  else .error .outOfMemory

/-- The source line and the marks under the name. -/
def excerpt (d : Diagnostic) (name source : String) : Except Fault (List String) := do
  let gutter ← written (limits.ofInt? d.location.line) (toString d.location.line)
  let bar := paint (some .blue) .bold "|"
  let blanks ← indent limits d.location.column
  let marks := paint (some (severityColour d.severity)) .bold (repeated (max name.length 1) '^')
  return [" " ++ paint (some .blue) .bold gutter ++ " " ++ bar ++ " " ++ source,
    " " ++ repeated gutter.length ' ' ++ " " ++ bar ++ " " ++ blanks ++ marks]

/-- The place of a diagnostic, if it has one. -/
def placeLines (l : Location) : Except Fault (List String) := do
  if l.file = "" ∧ l.line = 0 then return []
  let place ← written (l.excess? limits) l.text
  return ["  " ++ paint (some .blue) .bold "-->" ++ " " ++ place]

/-- The excerpt of a diagnostic, if its source line and its column are known. -/
def excerptLines (sources : Sources) (d : Diagnostic) (name : String) :
    Except Fault (List String) :=
  match sourceLine sources d.location.file d.location.line with
  | some source => if d.location.column = 0 then .ok [] else excerpt limits paint d name source
  | none => .ok []

/-- The rendering for terminals. -/
def terminal (sources : Sources) (d : Diagnostic) : Except Fault String := do
  let message ← d.message
  let name ← d.name
  let place ← placeLines limits paint d.location
  let shown ← excerptLines limits paint sources d name
  let hint ← d.hint
  let line ← d.line limits
  let headline := paint (some (severityColour d.severity)) .bold
    (d.severity.text ++ "[" ++ d.finding.id ++ "]") ++ ": " ++ paint none .bold message
  let help := match hint with
    | some h => ["  = " ++ paint (some .green) .bold "help" ++ ": " ++ h]
    | none => []
  let lines := headline :: place ++ shown ++ help ++ [paint none .dark line, ""]
  return "\n".intercalate lines ++ "\n"

end terminal

end AttributeLint.Report
