import AttributeLint.Clock
import AttributeLint.Dump
import AttributeLint.Results

/-!
# Running checkers

A runner holds what all runs share: the registered checkers, suppressions, options and vocabulary.
A run shows one file to the selected checkers in turn. It fails with the first fault of a checker;
the log then still tells of the checkers before it. The clock is read before and after each checker,
so a run leaves it where the next run has to start.
-/

namespace AttributeLint

/-- What runs share. -/
structure Runner where
  registry : Registry := .standard
  suppressions : Suppressions := {}
  options : Options := {}
  vocabulary : Vocabulary := .standard
  /-- The clock that times the checkers. -/
  clock : Clock := {}

/-- One file to be checked. -/
structure Request where
  elements : List Element
  file : String := ""
  /-- The checkers to run, by name; all registered ones if there is no list. -/
  checkers : Option (List String) := none

namespace Runner

/-- The vocabulary to use: an empty one gives way to the standard one. -/
def vocabularyOr (v : Vocabulary) : Vocabulary :=
  if v.entries.isEmpty then .standard else v

/-- The runner for options and a vocabulary, with the standard checkers and nothing suppressed. -/
def ofVocabulary (o : Options) (v : Vocabulary) (clock : Clock) : Runner :=
  { options := o, vocabulary := vocabularyOr v, clock := clock }

/-- What the checkers are shown. -/
def scope (r : Runner) (q : Request) : Scope :=
  ⟨q.elements, q.file, r.options, r.vocabulary, r.suppressions⟩

/-- The selected checkers. Names that are not registered select none. -/
def select (r : Runner) : Option (List String) → List Checker
  | none => r.registry.checkers
  | some names => names.filterMap r.registry.named?

/-- The selected names that are not registered. -/
def unregistered (r : Runner) : Option (List String) → List String
  | none => []
  | some names => names.filter fun n => (r.registry.named? n).isNone

/-- Runs checkers in turn on shared counts, up to the first fault. -/
def passes (scope : Scope) (clock : Clock) (counts : Counts) :
    List Checker → List Checker.Pass × Option Fault
  | [] => ([], none)
  | c :: rest =>
      match c.pass scope counts with
      | .error f => ([], some f)
      | .ok p =>
          let (more, fault) := passes scope (clock.advance 2) p.counts rest
          ({ p with elapsed := clock.lap } :: more, fault)

/-- What the selected checkers find in one file. -/
def passesOf (r : Runner) (q : Request) : List Checker.Pass × Option Fault :=
  passes (r.scope q) r.clock [] (r.select q.checkers)

/-- Checks one file. -/
def run (r : Runner) (q : Request) : Except Fault Results :=
  match r.passesOf q with
  | (_, some f) => .error f
  | (done, none) => .ok (Results.ofPasses done)

/-- How often a run reads the clock: twice for a checker that finishes, once for one that fails. -/
def readings (r : Runner) (q : Request) : Nat :=
  match r.passesOf q with
  | (done, some _) => 2 * done.length + 1
  | (done, none) => 2 * done.length

/-- The runner after its clock has been read a number of times. -/
def afterReadings (r : Runner) (n : Nat) : Runner :=
  { r with clock := r.clock.advance n }

/-! ## Dumps -/

/-- The request for a file of a dump. -/
def requestFor (checkers : Option (List String)) (f : FileDump) : Request :=
  ⟨f.elements, f.file, checkers⟩

/-- Checks the files of a dump, in order. -/
def runFiles (r : Runner) (checkers : Option (List String)) (combined : Results) :
    List FileDump → Except Fault Results
  | [] => .ok combined
  | f :: rest =>
      let q := requestFor checkers f
      match r.run q with
      | .error e => .error e
      | .ok results =>
          runFiles (r.afterReadings (r.readings q)) checkers (combined.merge results) rest

/-- Checks a dump. -/
def runDump (r : Runner) (d : Dump) (checkers : Option (List String)) : Except Fault Results :=
  r.runFiles checkers {} d.files

/-- How often checking files, up to the first fault, reads the clock. -/
def fileReadings (r : Runner) (checkers : Option (List String)) : List FileDump → Nat
  | [] => 0
  | f :: rest =>
      let q := requestFor checkers f
      match r.run q with
      | .error _ => r.readings q
      | .ok _ => r.readings q + fileReadings r checkers rest

/-! ## Log -/

/-- The part of the log that runs write. -/
def logSource : String := "jsxprop_lint.checkers"

/-- What the log says of a name that is not registered. -/
def unregisteredRecord (name : String) : Record :=
  ⟨.warning, logSource, "unknown checker '" ++ name ++ "' ignored"⟩

/-- What the log says of a checker that has finished. -/
def passRecord (file : String) (p : Checker.Pass) : Record :=
  ⟨.debug, logSource, p.checker ++ ": " ++ toString p.diagnostics.length ++ " diagnostic(s) in "
    ++ (if file = "" then "<input>" else file) ++ " (" ++ Results.millis p.elapsed ++ ")"⟩

/-- What the log says of a run. -/
def log (r : Runner) (q : Request) : List Record :=
  (r.unregistered q.checkers).map unregisteredRecord ++ (r.passesOf q).1.map (passRecord q.file)

/-- What the log says of the files of a dump, up to the one with the first fault. -/
def logFiles (r : Runner) (checkers : Option (List String)) : List FileDump → List Record
  | [] => []
  | f :: rest =>
      let q := requestFor checkers f
      r.log q ++
        match r.run q with
        | .error _ => []
        | .ok _ => logFiles (r.afterReadings (r.readings q)) checkers rest

end Runner

end AttributeLint
