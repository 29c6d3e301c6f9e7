import AttributeLint.Text.Digit
import AttributeLint.Text.Quoted

/-!
# Command line arguments

Arguments are read in two steps. First every argument is classified on its own: an option, with or
without a value attached, a positional argument, or something that looks like an option and is none.
A long option may be abbreviated as long as one option is meant. Then the arguments are consumed in
order. Options without a value may be clustered behind one hyphen. The positional arguments are the
first unbroken run of them; later ones are not recognised. Help and version end the reading where
they stand.
-/

namespace AttributeLint.CommandLine

/-! ## Options -/

/-- The options. -/
inductive Flag where
  | help
  | ignore
  | suppress
  | suppressFile
  | output
  | sarifOutput
  | applyFixes
  | listCheckers
  | verbose
  | version
  deriving DecidableEq, Repr

/-- The spellings of the options, in the order in which help lists them. -/
def spellings : List (String × Flag) :=
  [("-h", .help), ("--help", .help), ("--ignore", .ignore), ("--suppress", .suppress),
   ("--suppress-file", .suppressFile), ("--output", .output), ("--sarif-output", .sarifOutput),
   ("--apply-fixes", .applyFixes), ("--list-checkers", .listCheckers), ("-v", .verbose),
   ("--verbose", .verbose), ("--version", .version)]

/-- Does the option need a value? -/
def Flag.takesValue : Flag → Bool
  | .ignore | .suppress | .suppressFile | .output | .sarifOutput => true
  | _ => false

/-- The spellings of an option, for messages. -/
def Flag.text (f : Flag) : String :=
  "/".intercalate ((spellings.filter fun s => s.2 = f).map Prod.fst)

/-- The output formats. -/
inductive Format where
  | json
  | gcc
  | terminal
  | sarif
  | summary
  deriving DecidableEq, Repr

/-- The formats by name. -/
def formats : List (String × Format) :=
  [("json", .json), ("gcc", .gcc), ("terminal", .terminal), ("sarif", .sarif),
   ("summary", .summary)]

/-- What the arguments ask for. -/
structure Settings where
  /-- The paths of the dumps. -/
  dumps : List String := []
  /-- Attribute names to accept. -/
  ignore : List String := []
  /-- Identifiers to suppress everywhere. -/
  suppress : List String := []
  /-- Identifiers with file patterns, as written. -/
  suppressFile : List String := []
  output : Format := .json
  sarifOutput : Option String := none
  applyFixes : Bool := false
  listCheckers : Bool := false
  verbosity : Nat := 0
  deriving DecidableEq, Repr

/-! ## Refusals -/

/-- Why arguments are refused. -/
inductive Refusal where
  | ambiguous (argument : String) (candidates : List String)
  | valueExpected (flag : Flag)
  | valueIgnored (flag : Flag) (value : String)
  | badFormat (value : String)
  | unrecognised (arguments : List String)
  | noDumps
  | badSuppression (entry : String)
  deriving DecidableEq, Repr

/-- The wording of a refusal. -/
def Refusal.message : Refusal → String
  | .ambiguous argument candidates =>
      "ambiguous option: " ++ argument ++ " could match " ++ ", ".intercalate candidates
  | .valueExpected flag => "argument " ++ flag.text ++ ": expected one argument"
  | .valueIgnored flag value =>
      "argument " ++ flag.text ++ ": ignored explicit argument " ++ Text.quoted value
  | .badFormat value =>
      "argument " ++ Flag.output.text ++ ": invalid choice: " ++ Text.quoted value
        ++ " (choose from " ++ ", ".intercalate (formats.map fun f => Text.quoted f.1) ++ ")"
  | .unrecognised arguments => "unrecognized arguments: " ++ " ".intercalate arguments
  | .noDumps => "at least one element dump is required"
  | .badSuppression entry => "--suppress-file expects ID:PATTERN, got " ++ Text.quoted entry

/-- Why reading arguments ends before a run. -/
inductive Stop where
  | help
  | version
  | refused (r : Refusal)
  deriving DecidableEq, Repr

/-! ## Classification -/

/-- What an argument is. -/
inductive Reading where
  | positional
  /-- Two hyphens: all further arguments are positional. -/
  | separator
  /-- An option as spelled in full, with the value attached to it. -/
  | option (flag : Flag) (spelling : String) (value : Option String)
  /-- It looks like an option and is none. -/
  | unknown
  deriving DecidableEq, Repr

/-- The text before and after the first equals sign. -/
def splitEquals (cs : List Char) : List Char × Option String :=
  match cs.dropWhile (· != '=') with
  | [] => (cs, none)
  | _ :: value => (cs.takeWhile (· != '='), some (String.ofList value))

/-- The options that a long argument may abbreviate. -/
def longCandidates (cs : List Char) : List (String × Flag × Option String) :=
  let (stem, value) := splitEquals cs
  (spellings.filter fun s => stem.isPrefixOf s.1.toList).map fun s => (s.1, s.2, value)

/-- The options that an argument behind one hyphen may mean: a short option with a value or further
options attached. -/
def shortCandidates (cs : List Char) : List (String × Flag × Option String) :=
  (spellings.filter fun s => s.1.toList = cs.take 2).map fun s =>
    (s.1, s.2, some (String.ofList (cs.drop 2)))

/-- Does the text read as a negative number? A line break at the end does not count. -/
def isNegativeNumber (cs : List Char) : Bool :=
  let body := if cs.getLast? = some '\n' then cs.dropLast else cs
  match body with
  | '-' :: digits =>
      let fraction := digits.dropWhile Text.isDecimalDigit
      match fraction with
      | [] => !digits.isEmpty
      | '.' :: places => !places.isEmpty && places.all Text.isDecimalDigit
      | _ => false
  | _ => false

/-- What an argument that starts with a hyphen and is no option is. -/
def classifyStray (cs : List Char) : Reading :=
  if isNegativeNumber cs || cs.contains ' ' then .positional else .unknown

/-- Classifies an argument that starts with a hyphen and is not spelled like an option. -/
def classifyHyphened (arg : String) : Except Refusal Reading :=
  let cs := arg.toList
  let (stem, value) := splitEquals cs
  match value, spellings.lookup (String.ofList stem) with
  | some v, some flag => .ok (.option flag (String.ofList stem) (some v))
  | _, _ =>
      match (if "--".toList.isPrefixOf cs then longCandidates cs else shortCandidates cs) with
      | [] => .ok (classifyStray cs)
      | [(spelling, flag, v)] => .ok (.option flag spelling v)
      | several => .error (.ambiguous arg (several.map fun s => s.1))

/-- Classifies an argument. -/
def classify (arg : String) : Except Refusal Reading :=
  if arg.toList.head? ≠ some '-' then .ok .positional
  else
    match spellings.lookup arg with
    | some flag => .ok (.option flag arg none)
    | none => if arg = "-" then .ok .positional else classifyHyphened arg

/-- Classifies arguments up to the separator, and takes all behind it as positional. -/
def classifyAll : List String → Except Refusal (List (String × Reading))
  | [] => .ok []
  | arg :: rest =>
      if arg = "--" then .ok ((arg, .separator) :: rest.map fun a => (a, .positional))
      else
        match classify arg with
        | .error e => .error e
        | .ok reading =>
            match classifyAll rest with
            | .error e => .error e
            | .ok more => .ok ((arg, reading) :: more)

/-! ## Consumption -/

/-- The state of the one run of positional arguments. -/
inductive Run where
  | ahead
  | inside
  | past
  deriving DecidableEq, Repr

/-- What has been consumed. -/
structure Progress where
  settings : Settings := {}
  run : Run := .ahead
  /-- Arguments that are not recognised. -/
  extras : List String := []

/-- Takes a positional argument. -/
def Progress.positional (p : Progress) (arg : String) : Progress :=
  match p.run with
  | .past => { p with extras := p.extras ++ [arg] }
  | _ =>
      { p with
        run := .inside
        settings := { p.settings with dumps := p.settings.dumps ++ [arg] } }

/-- Takes the separator, which belongs to the run of positional arguments but is none of them. -/
def Progress.separator (p : Progress) (arg : String) : Progress :=
  match p.run with
  | .past => { p with extras := p.extras ++ [arg] }
  | _ => { p with run := .inside }

/-- An option or its like ends a run of positional arguments. -/
def Progress.interrupt (p : Progress) : Progress :=
  { p with run := if p.run = .inside then .past else p.run }

/-- The options in a cluster: those without a value behind `flag`, each one a character. -/
def cluster (flag : Flag) (attached : List Char) : List Char → Except Refusal (List Flag)
  | [] => .ok [flag]
  | c :: rest =>
      match spellings.lookup (String.ofList ['-', c]) with
      | none => .error (.valueIgnored flag (String.ofList attached))
      | some next =>
          match cluster next rest rest with
          | .error e => .error e
          | .ok more => .ok (flag :: more)

/-- The options that an option with attached text stands for, if none of them takes a value. -/
def expand (flag : Flag) (spelling : String) : Option String → Except Refusal (List Flag)
  | none => .ok [flag]
  | some value =>
      if "--".toList.isPrefixOf spelling.toList || value = "" then
        .error (.valueIgnored flag value)
      else cluster flag value.toList value.toList

/-- Carries out an option without a value. -/
def applyFlag (s : Settings) : Flag → Except Stop Settings
  | .help => .error .help
  | .version => .error .version
  | .applyFixes => .ok { s with applyFixes := true }
  | .listCheckers => .ok { s with listCheckers := true }
  | .verbose => .ok { s with verbosity := s.verbosity + 1 }
  | _ => .ok s

/-- Carries out options without a value, in order. -/
def applyFlags (s : Settings) : List Flag → Except Stop Settings
  | [] => .ok s
  | f :: rest =>
      match applyFlag s f with
      | .error e => .error e
      | .ok next => applyFlags next rest

/-- Carries out an option with its value. -/
def applyValue (s : Settings) (flag : Flag) (value : String) : Except Stop Settings :=
  match flag with
  | .ignore => .ok { s with ignore := s.ignore ++ [value] }
  | .suppress => .ok { s with suppress := s.suppress ++ [value] }
  | .suppressFile => .ok { s with suppressFile := s.suppressFile ++ [value] }
  | .sarifOutput => .ok { s with sarifOutput := some value }
  | .output =>
      match formats.lookup value with
      | some f => .ok { s with output := f }
      | none => .error (.refused (.badFormat value))
  | _ => .ok s

/-- Consumes classified arguments in order. -/
def consume (p : Progress) : List (String × Reading) → Except Stop Progress
  | [] => .ok p
  | (arg, .positional) :: rest => consume (p.positional arg) rest
  | (arg, .separator) :: rest => consume (p.separator arg) rest
  | (arg, .unknown) :: rest =>
      consume { p.interrupt with extras := p.extras ++ [arg] } rest
  | (_, .option flag spelling value) :: rest =>
      if flag.takesValue then
        match value with
        | some v =>
            match applyValue p.settings flag v with
            | .error e => .error e
            | .ok s => consume { p.interrupt with settings := s } rest
        | none =>
            match rest with
            | (v, .positional) :: more =>
                match applyValue p.settings flag v with
                | .error e => .error e
                | .ok s => consume { p.interrupt with settings := s } more
            | _ => .error (.refused (.valueExpected flag))
      else
        match expand flag spelling value with
        | .error e => .error (.refused e)
        | .ok flags =>
            match applyFlags p.settings flags with
            | .error e => .error e
            | .ok s => consume { p.interrupt with settings := s } rest

/-- Reads arguments. -/
def parse (args : List String) : Except Stop Settings :=
  match classifyAll args with
  | .error e => .error (.refused e)
  | .ok readings =>
      match consume {} readings with
      | .error e => .error e
      | .ok p =>
          if p.extras.isEmpty then .ok p.settings else .error (.refused (.unrecognised p.extras))

/-! ## Texts -/

/-- How the command is called. -/
def usage : String :=
  "usage: jsxprop-lint [-h] [--ignore NAME] [--suppress ID]\n"
    ++ "                    [--suppress-file ID:PATTERN]\n"
    ++ "                    [--output \x7bjson,gcc,terminal,sarif,summary\x7d]\n"
    ++ "                    [--sarif-output PATH] [--apply-fixes] [--list-checkers]\n"
    ++ "                    [-v] [--version]\n"
    ++ "                    [dumps ...]\n"

/-- The help text. -/
def helpText : String :=
  usage ++ "\n"
    ++ "Validate attribute names on JSX-like elements from element dumps.\n"
    ++ "\n"
    ++ "positional arguments:\n"
    ++ "  dumps                 Element dump files (JSON)\n"
    ++ "\n"
    ++ "options:\n"
    ++ "  -h, --help            show this help message and exit\n"
    ++ "  --ignore NAME         Attribute name to always accept (repeatable)\n"
    ++ "  --suppress ID         Message id to suppress everywhere (repeatable; '*' for\n"
    ++ "                        all)\n"
    ++ "  --suppress-file ID:PATTERN\n"
    ++ "                        Message id to suppress in files matching PATTERN\n"
    ++ "                        (repeatable)\n"
    ++ "  --output \x7bjson,gcc,terminal,sarif,summary\x7d\n"
    ++ "                        Output format (default: json)\n"
    ++ "  --sarif-output PATH   Also write a SARIF report to PATH\n"
    ++ "  --apply-fixes         Print each file's source with rename fixes applied, as\n"
    ++ "                        JSON lines\n"
    ++ "  --list-checkers       List available checkers and exit\n"
    ++ "  -v, --verbose\n"
    ++ "  --version             show program's version number and exit\n"

/-- A refusal as it is printed. -/
def Refusal.text (r : Refusal) : String :=
  usage ++ "jsxprop-lint: error: " ++ r.message ++ "\n"

end AttributeLint.CommandLine
