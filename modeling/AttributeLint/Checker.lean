import AttributeLint.Suppression

/-!
# Checkers

A checker looks at the elements of a file and reports diagnostics. It works in phases: it surveys
the elements, turns what the survey found into diagnostics, and reports those that are not
suppressed. What it has found so far is a value, so phases can be repeated; a repeated phase adds to
what is there.

A survey may meet an element that cannot be judged. What was found before it is kept.

The checkers of a file share its counts, so a survey is handed the counts of the checkers before it.
A checker here is one whose survey does not look at them: what it finds in a file does not depend on
which checkers ran first.
-/

namespace AttributeLint

/-- Named counts, in the order in which they were first set. -/
abbrev Counts := List (String × Nat)

/-- What a checker is shown of one file. -/
structure Scope where
  elements : List Element
  file : String := ""
  options : Options := {}
  vocabulary : Vocabulary := .standard
  suppressions : Suppressions := {}

/-- A judged attribute and the element it stands on. -/
structure Evidence where
  context : Context
  subject : Attribute
  verdict : Verdict

/-- What one walk over the elements found. -/
structure Survey where
  evidence : List Evidence
  /-- Components passed over. -/
  skipped : Nat
  /-- Why the walk ended early. -/
  fault : Option Fault

/-- A way of checking elements. -/
structure Checker where
  name : String
  description : String := ""
  /-- The word for this sort of checker. -/
  sort : String
  /-- The findings it can report. -/
  findings : List Finding := []
  /-- The findings it can fix. -/
  fixable : List Finding := []
  severity : Severity := .warning
  /-- The walk over the elements, given the counts set so far. -/
  survey : Scope → Counts → Survey
  /-- What is found does not depend on the counts set so far. -/
  survey_counts : ∀ scope counts, survey scope counts = survey scope []
  /-- The counts to set after a survey, given how much evidence is held in all. -/
  counts : Scope → Survey → Nat → Counts
  /-- The diagnostic of a piece of evidence; its verdict in words, unless the checker says more. -/
  diagnosis : Evidence → Option Diagnostic := fun e =>
    Diagnostic.ofVerdict severity ruleName e.context e.subject e.verdict

/-! ## The survey of attributes -/

/-- Evidence for the judgements of one element. -/
def evidenceOf (c : Context) (judged : List (Attribute × Verdict)) : List Evidence :=
  judged.map fun j => ⟨c, j.1, j.2⟩

/-- Judges every named attribute of every intrinsic element, in order. -/
def surveyAttributes (o : Options) (v : Vocabulary) : List Element → Survey
  | [] => ⟨[], 0, none⟩
  | e :: rest =>
      if e.context.component then
        let s := surveyAttributes o v rest
        { s with skipped := s.skipped + 1 }
      else
        match e.verdicts o v with
        | .error f => ⟨[], 0, some f⟩
        | .ok judged =>
            let s := surveyAttributes o v rest
            { s with evidence := evidenceOf e.context judged ++ s.evidence }

namespace Checker

/-- The checker of attribute names, under a name and with a severity. -/
def attributes (name : String) (severity : Severity) : Checker where
  name := name
  description := "Unknown DOM property / attribute detection"
  sort := "UnknownPropertyChecker"
  findings := Finding.all
  fixable := [.misspelled]
  severity := severity
  survey := fun scope _ => surveyAttributes scope.options scope.vocabulary scope.elements
  survey_counts := fun _ _ => rfl
  counts := fun _ survey held =>
    [(name ++ "_components_skipped", survey.skipped), (name ++ "_attributes_checked", held)]

/-- The checker that a run uses unless told otherwise. -/
def standard : Checker :=
  attributes ruleName .warning

/-- The checker with its sort and name. -/
def label (c : Checker) : String :=
  "<" ++ c.sort ++ " '" ++ c.name ++ "'>"

/-- The identifiers of findings, sorted. -/
def ids (findings : List Finding) : List String :=
  Text.distinct (findings.map Finding.id)

/-! ## Phases -/

/-- What a checker has found so far. -/
structure State where
  evidence : List Evidence := []
  diagnostics : List Diagnostic := []

/-- Sets counts one after the other. -/
def setCounts (counts new : Counts) : Counts :=
  new.foldl (fun acc p => Assoc.put p.1 p.2 acc) counts

/-- Surveys the elements. The counts are set unless the survey ended early. -/
def collect (c : Checker) (scope : Scope) (s : State) (counts : Counts) :
    State × Counts × Option Fault :=
  let survey := c.survey scope counts
  let evidence := s.evidence ++ survey.evidence
  match survey.fault with
  | some f => ({ s with evidence := evidence }, counts, some f)
  | none =>
      ({ s with evidence := evidence },
        setCounts counts (c.counts scope survey evidence.length), none)

/-- Turns all evidence held into diagnostics. -/
def diagnose (c : Checker) (s : State) : State :=
  { s with diagnostics := s.diagnostics ++ s.evidence.filterMap c.diagnosis }

/-- The diagnostics held that are not suppressed. -/
def report (scope : Scope) (s : State) : List Diagnostic :=
  scope.suppressions.filter s.diagnostics

/-- What one checker found in one file. -/
structure Pass where
  checker : String
  diagnostics : List Diagnostic
  /-- The counts of the file after this checker. -/
  counts : Counts
  /-- The milliseconds that it took. -/
  elapsed : Float := Float.ofNat 0

/-- All phases, once. -/
def pass (c : Checker) (scope : Scope) (counts : Counts) : Except Fault Pass :=
  let (s, counts, fault) := c.collect scope {} counts
  match fault with
  | some f => .error f
  | none => .ok { checker := c.name, diagnostics := report scope (c.diagnose s), counts := counts }

end Checker

/-! ## Registries -/

/-- Checkers by name, in the order in which the names were first registered. -/
abbrev Registry := List (String × Checker)

namespace Registry

/-- Registers a checker in the place of another of the same name. -/
def register (r : Registry) (c : Checker) : Registry :=
  Assoc.put c.name c r

/-- The registry of the given checkers. -/
def ofCheckers (cs : List Checker) : Registry :=
  cs.foldl register []

/-- The registry that a run uses unless told otherwise. -/
def standard : Registry :=
  ofCheckers [.standard]

/-- The checker with a name. -/
def named? (r : Registry) (name : String) : Option Checker :=
  List.lookup name r

/-- The names, sorted. -/
def names (r : Registry) : List String :=
  Text.sorted (r.map Prod.fst)

/-- The checkers, in registration order. -/
def checkers (r : Registry) : List Checker :=
  r.map Prod.snd

end Registry

end AttributeLint
