import AttributeLint.Diagnostic

/-!
# Tallies

How many diagnostics of each severity a report has shown, and the line that sums them up.
-/

namespace AttributeLint.Report

/-- Counts of the diagnostics shown. -/
structure Tally where
  error : Nat := 0
  warning : Nat := 0
  information : Nat := 0
  fixable : Nat := 0
  deriving DecidableEq, Repr

namespace Tally

/-- Counts one diagnostic. -/
def record (t : Tally) (d : Diagnostic) : Tally where
  error := if d.severity = .error then t.error + 1 else t.error
  warning := if d.severity = .warning then t.warning + 1 else t.warning
  information := if d.severity = .information then t.information + 1 else t.information
  fixable := if d.fixable then t.fixable + 1 else t.fixable

/-- All diagnostics. -/
def total (t : Tally) : Nat :=
  t.error + t.warning + t.information

/-- A number and a noun, with an `s` unless the number is one. -/
def plural (n : Nat) (noun : String) : String :=
  toString n ++ " " ++ noun ++ (if n = 1 then "" else "s")

/-- The parts of the line for the severities that occurred. -/
def parts (t : Tally) : List String :=
  (if t.error = 0 then [] else [plural t.error "error"])
    ++ (if t.warning = 0 then [] else [plural t.warning "warning"])
    ++ (if t.information = 0 then [] else [toString t.information ++ " info"])

/-- The line that sums up a report. -/
def line (t : Tally) : String :=
  if t.parts.isEmpty then "no diagnostics emitted"
  else "; ".intercalate t.parts ++ " (" ++ toString t.total ++ " total)"
    ++ (if t.fixable = 0 then "" else ", " ++ toString t.fixable ++ " fixable")

end Tally

end AttributeLint.Report
