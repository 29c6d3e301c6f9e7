import AttributeLint.Checker
import AttributeLint.Decimal.Fixed

/-!
# Results of runs

The diagnostics of one or more runs, flat and by checker, with statistics. `merge` appends the
results of a later run: lists grow at the end, counts and times add up, and a checker is named once.
-/

namespace AttributeLint

/-- What runs have found. -/
structure Results where
  diagnostics : List Diagnostic := []
  /-- The diagnostics of each checker, in the order in which the checkers first ran. -/
  byChecker : List (String × List Diagnostic) := []
  counts : Counts := []
  /-- The milliseconds that each checker took. -/
  elapsed : List (String × Float) := []
  /-- The checkers that ran. -/
  checkers : List String := []

namespace Results

/-! ## Counting and selecting -/

/-- The number of diagnostics with a severity. -/
def severityCount (r : Results) (s : Severity) : Nat :=
  r.diagnostics.countP fun d => d.severity = s

/-- The number of errors. -/
def errorCount (r : Results) : Nat :=
  r.severityCount .error

/-- The number of warnings. -/
def warningCount (r : Results) : Nat :=
  r.severityCount .warning

/-- The number of diagnostics with a fix. -/
def fixableCount (r : Results) : Nat :=
  r.diagnostics.countP Diagnostic.fixable

/-- The number of diagnostics. -/
def total (r : Results) : Nat :=
  r.diagnostics.length

/-- The diagnostics with an identifier. -/
def withId (r : Results) (id : String) : List Diagnostic :=
  r.diagnostics.filter fun d => d.finding.id == id

/-- The diagnostics of a file. -/
def inFile (r : Results) (file : String) : List Diagnostic :=
  r.diagnostics.filter fun d => d.location.file == file

/-- The fixes of all diagnostics, in order. -/
def fixes (r : Results) : List Fix :=
  r.diagnostics.filterMap Diagnostic.fix

/-! ## Building -/

/-- Adds what a checker found in a file. A checker that runs again replaces its own list. -/
def addPass (r : Results) (p : Checker.Pass) : Results where
  diagnostics := r.diagnostics ++ p.diagnostics
  byChecker := Assoc.put p.checker p.diagnostics r.byChecker
  counts := p.counts
  elapsed := Assoc.put p.checker p.elapsed r.elapsed
  checkers := r.checkers ++ [p.checker]

/-- The results of the checkers of one file. -/
def ofPasses (passes : List Checker.Pass) : Results :=
  passes.foldl addPass {}

/-- Combines a value with the one under its key, if there is one. -/
def accumulate {α : Type} (combine : α → α → α) (into : List (String × α)) (p : String × α) :
    List (String × α) :=
  match into.lookup p.1 with
  | some old => Assoc.put p.1 (combine old p.2) into
  | none => into ++ [p]

/-- The results of both, in order. -/
def merge (r other : Results) : Results where
  diagnostics := r.diagnostics ++ other.diagnostics
  byChecker := other.byChecker.foldl (accumulate (· ++ ·)) r.byChecker
  counts := other.counts.foldl (accumulate (· + ·)) r.counts
  elapsed := other.elapsed.foldl (accumulate (· + ·)) r.elapsed
  checkers := other.checkers.foldl nameOnce r.checkers

/-! ## Rendering -/

/-- Renders every diagnostic, in order; the first fault counts. -/
def renderAll (render : Diagnostic → Except Fault String) :
    List Diagnostic → Except Fault (List String)
  | [] => .ok []
  | d :: rest =>
      match render d with
      | .error e => .error e
      | .ok s =>
          match renderAll render rest with
          | .error e => .error e
          | .ok more => .ok (s :: more)

/-- Lines with a line break between neighbours. -/
def joinLines (r : Except Fault (List String)) : Except Fault String :=
  match r with
  | .ok ls => .ok ("\n".intercalate ls)
  | .error e => .error e

/-- One JSON object a line. -/
def jsonLines (limits : Limits) (r : Results) : Except Fault String :=
  joinLines (renderAll (Diagnostic.jsonLine limits) r.diagnostics)

/-- One plain line per diagnostic. -/
def plainLines (limits : Limits) (r : Results) : Except Fault String :=
  joinLines (renderAll (Diagnostic.line limits) r.diagnostics)

/-- Milliseconds with one place. -/
def millis (elapsed : Float) : String :=
  (Decimal.Double.ofFloat elapsed).oneDecimal ++ "ms"

/-- What a checker found and how long it took. -/
def checkerLine (r : Results) (name : String) : String :=
  let found := ((r.byChecker.lookup name).getD []).length
  "  " ++ name ++ ": " ++ toString found ++ " findings ("
    ++ millis ((r.elapsed.lookup name).getD (Float.ofNat 0)) ++ ")"

/-- The totals, and a line for each checker. -/
def summary (r : Results) : String :=
  "\n".intercalate (
    ("Checker run complete: " ++ toString r.total ++ " diagnostics (" ++ toString r.errorCount
      ++ " errors, " ++ toString r.warningCount ++ " warnings, " ++ toString r.fixableCount
      ++ " fixable)") :: r.checkers.map r.checkerLine)

end Results

end AttributeLint
