import AttributeLint.CommandLine.Arguments
import AttributeLint.Path
import AttributeLint.Report.Reporter
import AttributeLint.Runner

/-!
# A run of the command

The command as a function: arguments, surroundings and the contents of files go in; an exit code,
the two output texts and the files to be written come out. The exit code is 0 without findings, 1
with findings, and 2 for faults of the input, which are logged. With fixes asked for, each file's
line is written before the next file is looked at.
-/

namespace AttributeLint.CommandLine

open Report

/-- What surrounds a run. -/
structure Surroundings where
  /-- Does the output go to a terminal? -/
  tty : Bool := false
  /-- How texts are painted on terminals. -/
  paint : Paint := unpainted
  /-- The path for a SARIF document that the environment sets. -/
  sarifPath : Option String := none
  /-- The clock that times the checkers. -/
  clock : Clock := {}
  /-- The limits of the machine. -/
  limits : Limits := {}

/-- How a run ends. -/
inductive Ending where
  /-- With an exit code. -/
  | exit (code : Nat)
  /-- With an exit code, while arguments were read. -/
  | stopped (code : Nat)
  /-- With a fault that is not the input's. -/
  | failed (f : Fault)

/-- What a run leaves. -/
structure Outcome where
  ending : Ending
  /-- The text on standard output. -/
  out : String := ""
  /-- The text on standard error. -/
  err : String := ""
  /-- The files to be written at the end, before the run counts as ended. -/
  outputs : List Output := []
  /-- How often the clock was read. -/
  readings : Nat := 0

/-! ## Log -/

/-- The part of the log that the command writes. -/
def logSource : String := "jsxprop_lint"

/-- The least level to show. -/
def leastLevel (verbosity : Nat) : Level :=
  if verbosity = 0 then .warning else if verbosity = 1 then .info else .debug

/-- The records to show, as text. -/
def logText (s : Settings) (records : List Record) : String :=
  String.join ((records.filter (Record.reaches (leastLevel s.verbosity))).map Record.line)

/-- What the log says of a fault. -/
def faultRecord (p : Problem) : Record :=
  ⟨.error, logSource, p.text⟩

/-- A run that ends with a fault: faults of the input are logged, others pass through. -/
def failure (s : Settings) (records : List Record) (out : String) (f : Fault) : Outcome :=
  match f.problem? with
  | some p => { ending := .exit 2, out := out, err := logText s (records ++ [faultRecord p]) }
  | none => { ending := .failed f, out := out, err := logText s records }

/-! ## Checkers on offer -/

/-- A text in a column of a width. -/
def column (width : Nat) (s : String) : String :=
  s ++ repeated (width - s.length) ' '

/-- The account of one checker. -/
def checkerText (c : Checker) : String :=
  let fixable := ", ".intercalate (Checker.ids c.fixable)
  "  " ++ column 25 c.name ++ " " ++ c.description ++ "\n"
    ++ "  " ++ column 25 "" ++ " IDs: " ++ ", ".intercalate (Checker.ids c.findings) ++ "\n"
    ++ "  " ++ column 25 "" ++ " Fixable: " ++ (if fixable = "" then "-" else fixable) ++ "\n\n"

/-- The account of all checkers, by name. -/
def checkersText (r : Registry) : String :=
  String.join ((r.names.filterMap r.named?).map checkerText)

/-! ## Reading and checking -/

/-- An identifier and a file pattern: the texts before and after the first colon, neither empty. -/
def suppression? (entry : String) : Option (String × String) :=
  let id := entry.toList.takeWhile (· != ':')
  match entry.toList.dropWhile (· != ':') with
  | [] => none
  | _ :: pattern =>
      if id.isEmpty || pattern.isEmpty then none
      else some (String.ofList id, String.ofList pattern)

/-- Adds the suppressions in files, in order; the first that is malformed is refused. -/
def addSuppressions (s : Suppressions) : List String → Except Refusal Suppressions
  | [] => .ok s
  | entry :: rest =>
      match suppression? entry with
      | none => .error (.badSuppression entry)
      | some (id, pattern) => addSuppressions (s.addInFiles id pattern) rest

/-- The suppressions that the arguments ask for. -/
def suppressions (s : Settings) : Except Refusal Suppressions :=
  addSuppressions (s.suppress.foldl Suppressions.addEverywhere {}) s.suppressFile

/-- Loads dumps in order, up to the first fault. -/
def loadAll (limits : Limits) (openFile : String → Dump.Opened) :
    List String → List Record × Except Fault (List Dump)
  | [] => ([], .ok [])
  | path :: rest =>
      let opened := openFile (Path.clean path)
      let log := Dump.loadLog limits (Path.clean path) opened
      match Dump.load limits (Path.clean path) opened with
      | .error f => (log, .error f)
      | .ok dump =>
          let (more, loaded) := loadAll limits openFile rest
          (log ++ more, match loaded with
            | .error f => .error f
            | .ok dumps => .ok (dump :: dumps))

/-- Checks files one by one, up to the first fault. -/
def runAll (r : Runner) : List FileDump → List Record × Except Fault (List (FileDump × Results))
  | [] => ([], .ok [])
  | file :: rest =>
      let q := Runner.requestFor none file
      match r.run q with
      | .error f => (r.log q, .error f)
      | .ok results =>
          let (more, checked) := runAll (r.afterReadings (r.readings q)) rest
          (r.log q ++ more, match checked with
            | .error f => .error f
            | .ok all => .ok ((file, results) :: all))

/-! ## Output -/

/-- Writes a line for each member of a list, up to the first fault. -/
def writeLines {α : Type} (line : α → Except Fault String) : List α → String × Option Fault
  | [] => ("", none)
  | a :: rest =>
      match line a with
      | .error f => ("", some f)
      | .ok text =>
          let (more, fault) := writeLines line rest
          (text ++ "\n" ++ more, fault)

/-- The line of a file with its fixes carried out. Its only integer is a count. -/
def fixedLine (limits : Limits) (c : FileDump × Results) : Except Fault String :=
  match c.1.source with
  | none => .error (.noSource c.1.file)
  | some source =>
      match applyFixes limits source c.2.fixes with
      | .error f => .error f
      | .ok fixed => .ok (Json.obj [("file", .str c.1.file), ("fixes", .int c.2.fixes.length),
          ("output", .str fixed)]).compact

/-- The sources of all files by file name; of several with one name the last. -/
def sourcesOf (files : List FileDump) : Sources :=
  Assoc.ofList (files.filterMap fun f => f.source.map fun s => (f.file, s))

/-- The document of diagnostics, as text. -/
def sarifText (limits : Limits) (ds : List Diagnostic) : Except Fault String :=
  match Sarif.addAll {} ds with
  | .error f => .error f
  | .ok sarif => sarif.text limits toolName toolVersion

/-- The document that is written beside the output, if the arguments ask for one. -/
def besideOutput (limits : Limits) (s : Settings) (ds : List Diagnostic) :
    Except Fault (List Output) :=
  match s.sarifOutput with
  | none => .ok []
  | some path =>
      if path = "" then .ok []
      else
        match sarifText limits ds with
        | .error f => .error f
        | .ok text => .ok [⟨path, text⟩]

/-- What a run shows: its text and the files beside it, as far as a fault let it come. -/
structure Shown where
  text : String := ""
  outputs : List Output := []
  fault : Option Fault := none

/-- The report for readers. It is closed, and its document written, also after a fault; a fault of
the document comes last and is the one that shows. -/
def report (s : Settings) (w : Surroundings) (files : List FileDump) (ds : List Diagnostic) :
    Shown :=
  let style := if w.tty then Style.terminal w.paint (sourcesOf files) else .plain
  let reporter := Reporter.start style (Reporter.sarifPath? s.sarifOutput w.sarifPath)
  let (last, text, fault) := reporter.emitAll w.limits ds
  match last.output w.limits with
  | .error f => { text := text ++ last.closing, fault := some f }
  | .ok output => { text := text ++ last.closing, outputs := output.toList, fault := fault }

/-- The text in the format asked for, as far as a fault lets it come. -/
def formattedText (limits : Limits) (s : Settings) (r : Results) : String × Option Fault :=
  match s.output with
  | .json => writeLines (Diagnostic.jsonLine limits) r.diagnostics
  | .gcc => writeLines (Diagnostic.line limits) r.diagnostics
  | .sarif => writeLines (sarifText limits) [r.diagnostics]
  | _ => (r.summary ++ "\n", none)

/-- The text in the format asked for, and the document beside it. -/
def formatted (limits : Limits) (s : Settings) (r : Results) : Shown :=
  match formattedText limits s r with
  | (text, some f) => { text := text, fault := some f }
  | (text, none) =>
      match besideOutput limits s r.diagnostics with
      | .error f => { text := text, fault := some f }
      | .ok outputs => { text := text, outputs := outputs }

/-- What a run shows of its results. -/
def shown (s : Settings) (w : Surroundings) (files : List FileDump) (r : Results) : Shown :=
  match s.output with
  | .terminal => report s w files r.diagnostics
  | _ => formatted w.limits s r

/-! ## The run -/

/-- Ends a run whose arguments are refused. -/
def refuse (r : Refusal) : Outcome :=
  { ending := .stopped 2, err := r.text }

/-- The output of a run over checked files. -/
def conclude (s : Settings) (w : Surroundings) (records : List Record)
    (checked : List (FileDump × Results)) : Outcome :=
  if s.applyFixes then
    match writeLines (fixedLine w.limits) checked with
    | (text, some f) => failure s records text f
    | (text, none) => { ending := .exit 0, out := text, err := logText s records }
  else
    let results := checked.foldl (fun acc c => acc.merge c.2) {}
    let display := shown s w (checked.map Prod.fst) results
    { ending := match display.fault with
        | some f => .failed f
        | none => .exit (if results.total = 0 then 0 else 1)
      out := display.text
      err := logText s (records ++ [⟨.info, logSource, results.summary⟩])
      outputs := display.outputs }

/-- Loads the dumps, checks their files and writes the output. -/
def check (s : Settings) (w : Surroundings) (openFile : String → Dump.Opened) (r : Runner) :
    Outcome :=
  match loadAll w.limits openFile s.dumps with
  | (log, .error f) => failure s log "" f
  | (log, .ok dumps) =>
      let files := dumps.flatMap Dump.files
      let outcome := match runAll r files with
        | (more, .error f) => failure s (log ++ more) "" f
        | (more, .ok checked) => conclude s w (log ++ more) checked
      { outcome with readings := r.fileReadings none files }

/-- A run with the given settings. -/
def execute (s : Settings) (w : Surroundings) (openFile : String → Dump.Opened) : Outcome :=
  if s.listCheckers then { ending := .exit 0, out := checkersText .standard }
  else if s.dumps.isEmpty then refuse .noDumps
  else
    match Options.ofIgnore w.limits (.arr (s.ignore.map .str)) with
    | .error f => failure s [] "" f
    | .ok options =>
        match suppressions s with
        | .error r => refuse r
        | .ok suppressions =>
            check s w openFile
              { suppressions := suppressions, options := options, clock := w.clock }

/-- The command. -/
def run (args : List String) (w : Surroundings) (openFile : String → Dump.Opened) : Outcome :=
  match parse args with
  | .error .help => { ending := .stopped 0, out := helpText }
  | .error .version => { ending := .stopped 0, out := toolName ++ " " ++ toolVersion ++ "\n" }
  | .error (.refused r) => refuse r
  | .ok s => execute s w openFile

end AttributeLint.CommandLine
