import AttributeLint.Json.Display
import AttributeLint.Location
import AttributeLint.Text.Utf8

/-!
# Faults

What can be wrong with the input of the checker: with the elements a host hands over, with the
declarations of a vocabulary, with options, with a dump, with a set of fixes. Findings about
attributes are not faults; they are the checker's answer. A fault is a cause; its wording and the
data that go with it are derived from the cause in one place.

The wording is made when the fault is raised. If it shows a value of the input that is beyond a
limit of the machine, the limit is the fault that is raised (`Fault.raised`). Each function that a
host calls raises the faults it ends with, once; the functions it is made of hand on causes.

Most faults belong to a family with a code, and the command line reports them. The others are
defects of a value that the library was handed ready-made, or of the disk, or come of values beyond
a limit of the machine, and pass through.
-/

namespace AttributeLint

/-! ## Families -/

/-- Whose input is at fault. -/
inductive Family where
  | general
  | malformed
  | conflict
  | configuration
  | dump
  | fix
  deriving DecidableEq, Repr

/-- The stable code of a family. -/
def Family.code : Family → String
  | .general => "JPL-0000"
  | .malformed => "JPL-1001"
  | .conflict => "JPL-1002"
  | .configuration => "JPL-2001"
  | .dump => "JPL-3001"
  | .fix => "JPL-4001"

/-- A fault as it is reported. -/
structure Problem where
  family : Family
  message : String
  detail : List (String × Json) := []

/-- The message behind the code of its family. -/
def Problem.text (p : Problem) : String :=
  "[" ++ p.family.code ++ "] " ++ p.message

/-! ## Causes -/

/-- What is wrong at one place of a dump. -/
inductive Defect where
  | missing (key : String)
  | notInteger (key : String) (v : Json)
  | notRange (v : Json)
  | rangeOrder (start stop : Int)
  | attributeKind
  | elementKind
  | fileKind
  | tagKind (v : Json)
  | attributesKind
  | elementsKind
  | fileNameKind
  | sourceKind

/-- Why a file cannot be opened. -/
inductive DiskError where
  | notFound
  | isDirectory
  | notDirectory
  /-- A step of the path, or the path itself, is longer than the system allows. -/
  | nameTooLong
  /-- Another error of the system, with its number and wording. -/
  | other (code : Nat) (reason : String)
  deriving DecidableEq, Repr

/-- A cause of failure. -/
inductive Fault where
  /-- A name with no characters has no lookup key. -/
  | emptyName
  /-- An attribute's name is missing, empty or not a text. -/
  | unnamed (name : Json) (location : Location)
  | badSpan (start stop : Int)
  /-- A spread has no name to judge. -/
  | spreadJudged (location : Location)
  /-- The attributes of a component are not judged. -/
  | componentJudged (tag : Option String)
  | noAllowedTag (name : String)
  /-- Two declared names have one lookup key. -/
  | sharedKey (key seen name : String)
  | undeclared (name : String)
  | strayAlias (spelling name : String)
  | shadowingRename (raw key name : String)
  | undeclaredTarget (name : String)
  | ignoreIsText (text : String)
  | ignoreEntry (entry : Json)
  | severalOptions (count : Nat)
  | optionsKind (v : Json)
  | unknownOptions (names : List String)
  | notJson (wording : String) (position : Nat)
  | dumpDefect (site : String) (defect : Defect)
  | unreadable (path : String) (reason : DiskError)
  | notUtf8 (path : String) (flaw : Text.Utf8Flaw) (position : Nat)
  | noSource (file : String)
  | unrangedFix (text : String)
  | fixBeyondEnd (span : Span) (length : Nat)
  | overlappingFixes (first second : Span)
  /-- A checker supplied by a host gave up with a problem of its own. -/
  | host (problem : Problem)
  /-- A message needs a value that the diagnostic does not carry. -/
  | missingField (field : String)
  /-- A rename leads to a key that the vocabulary does not have. -/
  | noEntry (key : String)
  /-- The ignored names are given by a value that has no items. -/
  | notIterable (v : Json)
  | unwritable (path : String) (reason : DiskError)
  /-- A path with a null character names no file. -/
  | nullInPath
  /-- A text to be read, or to be made, is beyond what the machine takes. -/
  | beyondLimit (excess : Excess)
  /-- A column is so large, to either side, that no position in a line is counted like that. -/
  | columnBeyondIndex
  /-- A line for readers would not fit into memory. -/
  | outOfMemory

/-! ## Wording -/

/-- The wording of a defect, its place aside. -/
def Defect.message : Defect → String
  | .missing key => "missing '" ++ key ++ "'"
  | .notInteger key v => "'" ++ key ++ "' must be an integer, got " ++ v.display
  | .notRange v => "'range' must be [start, end], got " ++ v.display
  | .rangeOrder start stop =>
      "invalid text range [" ++ toString start ++ ", " ++ toString stop ++ ")"
  | .attributeKind => "attribute must be an object"
  | .elementKind => "element must be an object"
  | .fileKind => "expected an object"
  | .tagKind v => "'tag' must be a string or null, got " ++ v.display
  | .attributesKind => "'attributes' must be a list"
  | .elementsKind => "'elements' must be a list"
  | .fileNameKind => "'file' must be a string"
  | .sourceKind => "'source' must be a string"

/-- The data that go with a defect at a place. -/
def Defect.detail (site : String) : Defect → List (String × Json)
  | .notInteger key _ => [("where", .str site), ("key", .str key)]
  | .rangeOrder start stop => [("start", .int start), ("end", .int stop)]
  | _ => [("where", .str site)]

/-- The wording of a disk error for a path. -/
def DiskError.message (path : String) : DiskError → String
  | .notFound => "[Errno 2] No such file or directory: " ++ Text.quoted path
  | .isDirectory => "[Errno 21] Is a directory: " ++ Text.quoted path
  | .notDirectory => "[Errno 20] Not a directory: " ++ Text.quoted path
  | .nameTooLong => "[Errno 36] File name too long: " ++ Text.quoted path
  | .other code reason => "[Errno " ++ toString code ++ "] " ++ reason ++ ": " ++ Text.quoted path

/-- The two ends of a span as a list. -/
def Span.json (s : Span) : Json :=
  .arr [.int s.start, .int s.stop]

/-- A text that may be absent. -/
def optionalText : Option String → Json
  | some s => .str s
  | none => .null

/-- How messages name a tag that may be absent. -/
def tagText : Option String → String
  | some tag => tag
  | none => "None"

namespace Fault

/-- The family of a fault; nothing for the faults that pass through. -/
def family? : Fault → Option Family
  | .emptyName | .unnamed .. | .badSpan .. | .spreadJudged .. | .componentJudged ..
  | .noAllowedTag .. => some .malformed
  | .sharedKey .. | .undeclared .. | .strayAlias .. | .shadowingRename ..
  | .undeclaredTarget .. => some .conflict
  | .ignoreIsText .. | .ignoreEntry .. | .severalOptions .. | .optionsKind ..
  | .unknownOptions .. => some .configuration
  | .notJson .. | .dumpDefect .. | .unreadable .. | .notUtf8 .. => some .dump
  | .unrangedFix .. | .fixBeyondEnd .. | .overlappingFixes .. => some .fix
  | .noSource .. => some .general
  | .host problem => some problem.family
  | .missingField .. | .noEntry .. | .notIterable .. | .unwritable .. | .nullInPath
  | .beyondLimit .. | .columnBeyondIndex | .outOfMemory => none

/-- The wording of a fault. -/
def message : Fault → String
  | .emptyName => "attribute name is empty"
  | .unnamed _ _ => "attribute occurrence has no name"
  | .badSpan start stop => (Defect.rangeOrder start stop).message
  | .spreadJudged _ => "spread occurrence routed into name-based validation"
  | .componentJudged tag => "component element '" ++ tagText tag ++ "' is not validated"
  | .noAllowedTag name => "InvalidOnTag for '" ++ name ++ "' requires at least one allowed tag"
  | .sharedKey key seen name =>
      "'" ++ name ++ "' and '" ++ seen ++ "' share lookup key '" ++ key ++ "'"
  | .undeclared name => "'" ++ name ++ "' is restricted or aliased but not declared"
  | .strayAlias spelling name =>
      "alias '" ++ spelling ++ "' does not normalize onto '" ++ name ++ "'"
  | .shadowingRename raw _ name => "rename '" ++ raw ++ "' shadows canonical entry '" ++ name ++ "'"
  | .undeclaredTarget name => "rename target '" ++ name ++ "' is not declared"
  | .ignoreIsText _ => "'ignore' must be a list of attribute names, not a string"
  | .ignoreEntry entry => "'ignore' entries must be non-empty strings, got " ++ entry.display
  | .severalOptions count => "expected at most one options object, got " ++ toString count
  | .optionsKind v => "options must be a mapping, got " ++ v.kindName
  | .unknownOptions names => "unknown option(s): " ++ ", ".intercalate names
  | .notJson wording _ => "invalid JSON: " ++ wording
  | .dumpDefect site defect => site ++ ": " ++ defect.message
  | .unreadable path reason => "cannot read " ++ path ++ ": " ++ reason.message path
  | .notUtf8 path flaw position =>
      path ++ " is not valid UTF-8: " ++ flaw.message ++ " at byte " ++ toString position
  | .noSource file => "dump for '" ++ file ++ "' has no 'source' to apply fixes to"
  | .unrangedFix text => "fix to '" ++ text ++ "' has no source range"
  | .fixBeyondEnd span length =>
      "fix range " ++ span.json.display ++ " exceeds source length " ++ toString length
  | .overlappingFixes _ _ => "overlapping fixes"
  | .host problem => problem.message
  | .missingField field => Text.quoted field
  | .noEntry key => Text.quoted key
  | .notIterable v => "'" ++ v.kindName ++ "' object is not iterable"
  | .unwritable path reason => reason.message path
  | .nullInPath => "embedded null byte"
  | .beyondLimit excess => excess.message
  | .columnBeyondIndex => "cannot fit 'int' into an index-sized integer"
  | .outOfMemory => ""

/-- The data that go with a fault. -/
def detail : Fault → List (String × Json)
  | .emptyName => [("name", .str "")]
  | .unnamed name location => [("name", name), ("location", .str location.text)]
  | .badSpan start stop => (Defect.rangeOrder start stop).detail ""
  | .spreadJudged location => [("location", .str location.text)]
  | .componentJudged tag => [("tag", optionalText tag)]
  | .noAllowedTag name => [("name", .str name)]
  | .sharedKey key seen name => [("key", .str key), ("names", .arr [.str seen, .str name])]
  | .undeclared name => [("name", .str name)]
  | .strayAlias spelling name => [("alias", .str spelling), ("name", .str name)]
  | .shadowingRename _ key _ => [("key", .str key)]
  | .undeclaredTarget name => [("name", .str name)]
  | .ignoreIsText text => [("ignore", .str text)]
  | .ignoreEntry entry => [("entry", .str entry.display)]
  | .severalOptions count => [("count", .int count)]
  | .optionsKind _ => []
  | .unknownOptions names => [("unknown", .arr (names.map .str))]
  | .notJson _ position => [("position", .int position)]
  | .dumpDefect site defect => defect.detail site
  | .unreadable path _ => [("path", .str path)]
  | .notUtf8 path _ position => [("path", .str path), ("position", .int position)]
  | .noSource file => [("file", .str file)]
  | .unrangedFix text => [("text", .str text)]
  | .fixBeyondEnd span length => [("range", span.json), ("length", .int length)]
  | .overlappingFixes first second => [("ranges", .arr [first.json, second.json])]
  | .host problem => problem.detail
  | .missingField _ | .noEntry _ | .notIterable _ | .unwritable _ _ | .nullInPath
  | .beyondLimit _ | .columnBeyondIndex | .outOfMemory => []

/-- The fault as it is reported, if it belongs to a family. -/
def problem? (f : Fault) : Option Problem :=
  f.family?.map fun family => ⟨family, f.message, f.detail⟩

end Fault

/-! ## Raising -/

/-- The limit that wording a defect passes. -/
def Defect.excess? (limits : Limits) : Defect → Option Excess
  | .notInteger _ v => v.shownExcess? limits 0
  | .notRange v => v.shownExcess? limits 0
  | .tagKind v => v.shownExcess? limits 0
  | .rangeOrder start stop => (limits.ofInt? start).or (limits.ofInt? stop)
  | _ => none

namespace Fault

/-- The limit that making the texts of a fault passes. -/
def excess? (limits : Limits) : Fault → Option Excess
  | .unnamed _ location => location.excess? limits
  | .badSpan start stop => (Defect.rangeOrder start stop).excess? limits
  | .spreadJudged location => location.excess? limits
  | .ignoreEntry entry => entry.shownExcess? limits 0
  | .dumpDefect _ defect => defect.excess? limits
  | .fixBeyondEnd span _ => span.json.shownExcess? limits 0
  | _ => none

/-- The fault that is raised for a cause: the cause, unless making its texts passes a limit. -/
def raised (limits : Limits) (f : Fault) : Fault :=
  match f.excess? limits with
  | some x => .beyondLimit x
  | none => f

/-- Raises the fault of a computation that failed. -/
def raise {α : Type} (limits : Limits) (r : Except Fault α) : Except Fault α :=
  match r with
  | .ok a => .ok a
  | .error f => .error (f.raised limits)

end Fault

/-- A text, unless making it passes a limit. -/
def written (excess : Option Excess) (text : String) : Except Fault String :=
  match excess with
  | some x => .error (.beyondLimit x)
  | none => .ok text

end AttributeLint
