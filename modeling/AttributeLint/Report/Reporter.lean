import AttributeLint.Report.Render
import AttributeLint.Report.Sarif
import AttributeLint.Report.Tally

/-!
# Reports

A report shows diagnostics one by one, tallies them, and ends with a line that sums up. If a path
for a SARIF document is set, the diagnostics are gathered for it as well, and the document is to be
written at the end. Diagnostics are tallied before they are rendered, and gathered after. The text
of the document is made last, so that a report may end with a fault after its closing line.
-/

namespace AttributeLint.Report

/-- How diagnostics are shown. -/
inductive Style where
  | plain
  /-- For terminals, with a way of painting and with excerpts from sources. -/
  | terminal (paint : Paint) (sources : Sources)

/-- A report in progress. -/
structure Reporter where
  style : Style
  tally : Tally := {}
  /-- The path of a SARIF document and what has been gathered for it. -/
  sarif : Option (String × Sarif) := none
  tool : String := toolName
  version : String := toolVersion

/-- A file to be written. -/
structure Output where
  path : String
  content : String
  deriving DecidableEq, Repr

namespace Reporter

/-- The path of the document: the given one, else that of the environment; an empty path is none. -/
def sarifPath? (given environment : Option String) : Option String :=
  match given with
  | some p => if p = "" then environment.filter (· ≠ "") else some p
  | none => environment.filter (· ≠ "")

/-- A report in a style, with a path for the document if there is one. -/
def start (style : Style) (path : Option String) : Reporter :=
  { style := style, sarif := path.map fun p => (p, {}) }

/-- The text of one diagnostic. -/
def render (limits : Limits) (r : Reporter) (d : Diagnostic) : Except Fault String :=
  match r.style with
  | .plain => plain limits d
  | .terminal paint sources => terminal limits paint sources d

/-- Gathers a diagnostic for the document. -/
def gather (r : Reporter) (d : Diagnostic) : Except Fault Reporter :=
  match r.sarif with
  | none => .ok r
  | some (path, sarif) =>
      match sarif.add d with
      | .ok more => .ok { r with sarif := some (path, more) }
      | .error e => .error e

/-- Shows a diagnostic: the report after it, and its text. -/
def emit (limits : Limits) (r : Reporter) (d : Diagnostic) : Reporter × Except Fault String :=
  let tallied := { r with tally := r.tally.record d }
  match tallied.render limits d with
  | .error e => (tallied, .error e)
  | .ok text =>
      match tallied.gather d with
      | .error e => (tallied, .error e)
      | .ok gathered => (gathered, .ok text)

/-- Shows diagnostics in order, up to the first that cannot be shown. -/
def emitAll (limits : Limits) (r : Reporter) : List Diagnostic → Reporter × String × Option Fault
  | [] => (r, "", none)
  | d :: rest =>
      match r.emit limits d with
      | (next, .error f) => (next, "", some f)
      | (next, .ok text) =>
          let (last, more, fault) := emitAll limits next rest
          (last, text ++ more, fault)

/-- The colour of the last line. -/
def closingColour (t : Tally) : Colour :=
  if t.error ≠ 0 then .red else if t.total ≠ 0 then .yellow else .green

/-- The last line. -/
def closing (r : Reporter) : String :=
  match r.style with
  | .plain => "  " ++ r.tally.line ++ "\n"
  | .terminal paint _ =>
      paint (some (closingColour r.tally)) .bold ("  ╰─ " ++ r.tally.line) ++ "\n"

/-- The document to be written at the end, if there is one. -/
def output (limits : Limits) (r : Reporter) : Except Fault (Option Output) :=
  match r.sarif with
  | none => .ok none
  | some (path, sarif) =>
      match sarif.text limits r.tool r.version with
      | .error e => .error e
      | .ok content => .ok (some ⟨path, content⟩)

end Reporter

end AttributeLint.Report
