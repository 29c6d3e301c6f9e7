import AttributeLint.Fix
import AttributeLint.Json.Printer
import AttributeLint.Verdict

/-!
# Diagnostics

What is reported about an attribute. A finding has a stable identifier and a message template; the
values that fill the template travel with the diagnostic, so that a host can word the message
itself. A diagnostic for a rename carries the fix.

A diagnostic can be built with any values. Its renderings are therefore partial: a template that
names a value which is not there is a fault, and so is an integer that is too long to be written.
The diagnostics of a check are never short of a value.
-/

namespace AttributeLint

/-! ## Severities -/

/-- How grave a finding is to the host. -/
inductive Severity where
  | error
  | warning
  | information
  deriving DecidableEq, Repr, Inhabited

/-- The word for a severity. -/
def Severity.text : Severity → String
  | .error => "error"
  | .warning => "warning"
  | .information => "information"

/-- The severity of a word. -/
def Severity.ofText? (s : String) : Option Severity :=
  [Severity.error, .warning, .information].find? fun v => v.text == s

/-! ## Findings -/

/-- A part of a message template. -/
inductive Piece where
  | text (s : String)
  | value (field : String)
  deriving DecidableEq, Repr

/-- The kinds of findings. -/
inductive Finding where
  /-- The name means no attribute. -/
  | unknown
  /-- The name is another spelling of an attribute. -/
  | misspelled
  /-- The attribute is not valid on the tag. -/
  | misplaced
  deriving DecidableEq, Repr, Inhabited

namespace Finding

/-- All kinds. -/
def all : List Finding :=
  [.unknown, .misspelled, .misplaced]

/-- The stable identifier. -/
def id : Finding → String
  | .unknown => "unknownProp"
  | .misspelled => "unknownPropWithStandardName"
  | .misplaced => "invalidPropOnTag"

/-- The kind with an identifier. -/
def ofId? (s : String) : Option Finding :=
  all.find? fun f => f.id == s

/-- The message template. -/
def template : Finding → List Piece
  | .unknown => [.text "Unknown property '", .value "name", .text "' found"]
  | .misspelled =>
      [.text "Unknown property '", .value "name", .text "' found, use '", .value "standardName",
       .text "' instead"]
  | .misplaced =>
      [.text "Invalid property '", .value "name", .text "' found on tag '", .value "tagName",
       .text "', but it is only allowed on: ", .value "allowedTags"]

/-- The template as text, each value as its name in braces. -/
def templateText (f : Finding) : String :=
  String.join (f.template.map fun
    | .text s => s
    | .value field => "\x7b" ++ field ++ "\x7d")

end Finding

/-- Fills a template; the first value that is not there is a fault. -/
def fill (data : List (String × String)) : List Piece → Except Fault String
  | [] => .ok ""
  | .text s :: rest =>
      match fill data rest with
      | .ok more => .ok (s ++ more)
      | .error e => .error e
  | .value field :: rest =>
      match data.lookup field with
      | none => .error (.missingField field)
      | some s =>
          match fill data rest with
          | .ok more => .ok (s ++ more)
          | .error e => .error e

/-! ## Diagnostics -/

/-- The name of the rule that the check enforces. -/
def ruleName : String := "no-unknown-property"

/-- A report about one attribute. -/
structure Diagnostic where
  finding : Finding
  /-- The values of the message template. -/
  data : List (String × String)
  severity : Severity := .warning
  location : Location := {}
  fix : Option Fix := none
  rule : String := ruleName
  deriving DecidableEq, Repr

namespace Diagnostic

/-- A value that the diagnostic must carry. -/
def value (d : Diagnostic) (field : String) : Except Fault String :=
  match d.data.lookup field with
  | some s => .ok s
  | none => .error (.missingField field)

/-- The name of the attribute. -/
def name (d : Diagnostic) : Except Fault String :=
  d.value "name"

/-- The filled message template. -/
def message (d : Diagnostic) : Except Fault String :=
  fill d.data d.finding.template

/-- Is a fix proposed? -/
def fixable (d : Diagnostic) : Bool :=
  d.fix.isSome

/-- The diagnostic as a JSON object. -/
def json (d : Diagnostic) : Except Fault Json :=
  match d.message with
  | .error e => .error e
  | .ok message => .ok (.obj (
      [("file", .str d.location.file), ("line", .int d.location.line),
       ("column", .int d.location.column), ("severity", .str d.severity.text),
       ("ruleId", .str d.rule), ("messageId", .str d.finding.id), ("message", .str message),
       ("data", .obj (d.data.map fun p => (p.1, .str p.2)))]
      ++ match d.fix with
        | some f => [("fix", f.json)]
        | none => []))

/-- The diagnostic as JSON on one line. -/
def jsonLine (limits : Limits) (d : Diagnostic) : Except Fault String :=
  match d.json with
  | .error e => .error e
  | .ok v => written (v.writtenExcess? limits) v.compact

/-- The diagnostic on one line: place, severity, message and identifier. -/
def line (limits : Limits) (d : Diagnostic) : Except Fault String :=
  match written (d.location.excess? limits) d.location.text with
  | .error e => .error e
  | .ok place =>
      match d.message with
      | .error e => .error e
      | .ok message => .ok (place ++ ": " ++ d.severity.text ++ ": " ++ message
          ++ " [" ++ d.finding.id ++ "]")

/-- What a reader can do about it. -/
def hint (d : Diagnostic) : Except Fault (Option String) :=
  match d.finding with
  | .unknown => .ok none
  | .misspelled =>
      match d.value "standardName" with
      | .ok s => .ok (some ("rename to '" ++ s ++ "'"))
      | .error e => .error e
  | .misplaced =>
      match d.value "allowedTags" with
      | .ok s => .ok (some ("remove it, or use one of: " ++ s))
      | .error e => .error e

/-- The diagnostic of a verdict on an attribute; none if there is nothing to complain about. -/
def ofVerdict (severity : Severity) (rule : String) (c : Context) (a : Attribute) :
    Verdict → Option Diagnostic
  | .ok => none
  | .unknown =>
      some { finding := .unknown, data := [("name", a.name)], severity := severity
             location := a.location, rule := rule }
  | .rename name =>
      some { finding := .misspelled, data := [("name", a.name), ("standardName", name)]
             severity := severity, location := a.location, fix := some ⟨name, a.span⟩
             rule := rule }
  | .misplaced _ tags =>
      some { finding := .misplaced
             data := [("name", a.name), ("tagName", c.tag.getD ""),
                      ("allowedTags", ", ".intercalate tags)]
             severity := severity, location := a.location, rule := rule }

end Diagnostic

end AttributeLint
