import AttributeLint.Diagnostic

/-!
# SARIF documents

The interchange format for results of static analysis, version 2.1.0. A document lists the rules
that occur, each once in the order of first appearance, and one result per diagnostic. A fix that
has a span becomes a replacement of the characters it covers.
-/

namespace AttributeLint.Report

/-- The name of the tool in its reports. -/
def toolName : String := "jsxprop-lint"

/-- The version of the tool. -/
def toolVersion : String := "0.1.0"

/-- The diagnostics gathered for a document. -/
structure Sarif where
  /-- The kinds of findings so far, in order of first appearance. -/
  rules : List Finding := []
  results : List Json := []

namespace Sarif

/-- The version of the format. -/
def formatVersion : String := "2.1.0"

/-- The place of the format's schema. -/
def schema : String :=
  "https://raw.githubusercontent.com/oasis-tcs/sarif-spec/master/Schemata/sarif-schema-2.1.0.json"

/-- The word of the format for a severity. -/
def level : Severity → String
  | .error => "error"
  | .warning => "warning"
  | .information => "note"

/-- An object with a text. -/
def textObject (s : String) : Json :=
  .obj [("text", .str s)]

/-- The file of a result. -/
def artifact (l : Location) : Json :=
  .obj [("uri", .str l.file)]

/-- A rule of the document. -/
def rule (f : Finding) : Json :=
  .obj [("id", .str f.id), ("shortDescription", textObject f.templateText)]

/-- The place in the file, with the column if it is known. -/
def region (l : Location) : Json :=
  .obj (("startLine", .int l.line) ::
    if l.column = 0 then [] else [("startColumn", .int l.column)])

/-- A replacement of characters. -/
def replacement (s : Span) (text : String) : Json :=
  .obj [("deletedRegion", .obj [("charOffset", .int s.start), ("charLength", .int s.length)]),
        ("insertedContent", textObject text)]

/-- The fixes of a result: one if the fix of the diagnostic has a span. -/
def fixes (d : Diagnostic) (hint : Option String) : List (String × Json) :=
  match d.fix with
  | some ⟨text, some span⟩ =>
      [("fixes", .arr [.obj
        [("description", textObject (hint.getD "")),
         ("artifactChanges", .arr [.obj
           [("artifactLocation", artifact d.location),
            ("replacements", .arr [replacement span text])]])]])]
  | _ => []

/-- The result of a diagnostic. -/
def result (d : Diagnostic) : Except Fault Json := do
  let message ← d.message
  let hint ← d.hint
  return .obj (
    [("ruleId", .str d.finding.id), ("level", .str (level d.severity)),
     ("message", textObject message),
     ("locations", .arr [.obj [("physicalLocation", .obj
       [("artifactLocation", artifact d.location), ("region", region d.location)])]])]
    ++ fixes d hint)

/-- Adds a diagnostic. -/
def add (s : Sarif) (d : Diagnostic) : Except Fault Sarif :=
  match result d with
  | .error e => .error e
  | .ok r => .ok
      { rules := if s.rules.contains d.finding then s.rules else s.rules ++ [d.finding]
        results := s.results ++ [r] }

/-- Adds diagnostics in order. -/
def addAll (s : Sarif) : List Diagnostic → Except Fault Sarif
  | [] => .ok s
  | d :: rest =>
      match s.add d with
      | .error e => .error e
      | .ok more => addAll more rest

/-- The document. -/
def document (s : Sarif) (tool version : String) : Json :=
  .obj [("$schema", .str schema), ("version", .str formatVersion),
    ("runs", .arr [.obj
      [("tool", .obj [("driver", .obj
         [("name", .str tool), ("version", .str version), ("rules", .arr (s.rules.map rule))])]),
       ("results", .arr s.results)]])]

/-- The document as text. -/
def text (limits : Limits) (s : Sarif) (tool version : String) : Except Fault String :=
  let document := s.document tool version
  written (document.writtenExcess? limits) document.pretty

end Sarif

end AttributeLint.Report
