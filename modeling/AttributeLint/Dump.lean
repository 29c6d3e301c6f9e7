import AttributeLint.Element
import AttributeLint.Json.Reader
import AttributeLint.Log
import AttributeLint.Path
import AttributeLint.Text.Lines

/-!
# Element dumps

A dump is the JSON document that a host writes after visiting the elements of its source files: a
file object, or a list of them. `Dump.ofJson` accepts the documents of that format and refuses all
others at the first place, in reading order, that does not fit. Places are written like paths from
the document's root. A text is read within the limits of the machine, and so is what a refusal says.
-/

namespace AttributeLint

/-- The elements of one source file. -/
structure FileDump where
  file : String
  elements : List Element
  /-- The source text, if the host recorded it. -/
  source : Option String

/-- What one document holds. -/
structure Dump where
  files : List FileDump

namespace Dump

/-- The number of elements in all files. -/
def elementCount (d : Dump) : Nat :=
  d.files.foldl (fun n f => n + f.elements.length) 0

/-! ## Places -/

/-- The place of a member of a list. -/
def item (site : String) (i : Nat) : String :=
  site ++ "[" ++ toString i ++ "]"

/-- The place of an element of a file. -/
def elementSite (site : String) (i : Nat) : String :=
  item (site ++ ".elements") i

/-- The place of an attribute of an element. -/
def attributeSite (site : String) (i : Nat) : String :=
  item (site ++ ".attributes") i

/-! ## Reading -/

/-- Reads the members of a list, from index `i` on, each at its place. -/
def readAll {α : Type} (read : String → Json → Except Fault α) (place : Nat → String) (i : Nat) :
    List Json → Except Fault (List α)
  | [] => .ok []
  | v :: rest =>
      match read (place i) v with
      | .error e => .error e
      | .ok a =>
          match readAll read place (i + 1) rest with
          | .error e => .error e
          | .ok more => .ok (a :: more)

/-- A field that must be there. -/
def required (fields : List (String × Json)) (key site : String) : Except Fault Json :=
  match fields.lookup key with
  | some v => .ok v
  | none => .error (.dumpDefect site (.missing key))

/-- An integer field; zero if it is absent. -/
def intField (fields : List (String × Json)) (key site : String) : Except Fault Int :=
  match fields.lookup key with
  | none => .ok 0
  | some (.int n) => .ok n
  | some v => .error (.dumpDefect site (.notInteger key v))

/-- The location in a record. -/
def readLocation (fields : List (String × Json)) (file site : String) : Except Fault Location := do
  let line ← intField fields "line" site
  let column ← intField fields "column" site
  return ⟨file, line, column⟩

/-- The span in a record: absent, null, or two integers in order. -/
def readSpan (v : Option Json) (site : String) : Except Fault (Option Span) :=
  match v with
  | none => .ok none
  | some .null => .ok none
  | some (.arr [.int start, .int stop]) =>
      match Span.ofInts? start stop with
      | some s => .ok (some s)
      | none => .error (.dumpDefect site (.rangeOrder start stop))
  | some v => .error (.dumpDefect site (.notRange v))

/-- An attribute record: a spread if it says so, and named otherwise. -/
def readAttribute (file site : String) (v : Json) : Except Fault Occurrence :=
  match v with
  | .obj fields => do
      let location ← readLocation fields file site
      if ((fields.lookup "spread").getD .null).isSet then return .spread location
      let name ← required fields "name" site
      let span ← readSpan (fields.lookup "range") site
      let a ← Attribute.ofRecord name ((fields.lookup "value").getD .null) span location
      return .named a
  | _ => .error (.dumpDefect site .attributeKind)

/-- A tag is a text or null. -/
def readTag (v : Json) (site : String) : Except Fault (Option String) :=
  match v with
  | .null => .ok none
  | .str s => .ok (some s)
  | _ => .error (.dumpDefect site (.tagKind v))

/-- The list under a key, where an absent key may stand for an empty one. -/
def listField (v : Option Json) (site : String) (defect : Defect) : Except Fault (List Json) :=
  match v with
  | none => .ok []
  | some (.arr items) => .ok items
  | some _ => .error (.dumpDefect site defect)

/-- An element record. -/
def readElement (file site : String) (v : Json) : Except Fault Element :=
  match v with
  | .obj fields => do
      let tag ← readTag (← required fields "tag" site) site
      let records ← listField (fields.lookup "attributes") site .attributesKind
      let occurrences ← readAll (readAttribute file) (attributeSite site) 0 records
      let location ← readLocation fields file site
      return ⟨tag, occurrences, location⟩
  | _ => .error (.dumpDefect site .elementKind)

/-- The file name; empty if it is absent. -/
def readFileName (v : Option Json) (site : String) : Except Fault String :=
  match v with
  | none => .ok ""
  | some (.str s) => .ok s
  | some _ => .error (.dumpDefect site .fileNameKind)

/-- The source text; absent or null if it was not recorded. -/
def readSource (v : Option Json) (site : String) : Except Fault (Option String) :=
  match v with
  | none => .ok none
  | some .null => .ok none
  | some (.str s) => .ok (some s)
  | some _ => .error (.dumpDefect site .sourceKind)

/-- A file object. -/
def readFile (site : String) (v : Json) : Except Fault FileDump :=
  match v with
  | .obj fields => do
      let file ← readFileName (fields.lookup "file") site
      let records ← listField (some (← required fields "elements" site)) site .elementsKind
      let source ← readSource (fields.lookup "source") site
      let elements ← readAll (readElement file) (elementSite site) 0 records
      return ⟨file, elements, source⟩
  | _ => .error (.dumpDefect site .fileKind)

/-- A document. -/
def readDocument (v : Json) : Except Fault Dump :=
  match v with
  | .arr files => do return ⟨← readAll readFile (item "$") 0 files⟩
  | _ => do return ⟨[← readFile "$" v]⟩

/-- A document that has been decoded, for a host. -/
def ofJson (limits : Limits) (v : Json) : Except Fault Dump :=
  Fault.raise limits (readDocument v)

/-- The fault of a text that could not be read. -/
def unread (text : String) (e : Json.ReadError) : Fault :=
  match e.flaw with
  | .excess x => .beyondLimit x
  | _ => .notJson (e.message text) e.position

/-- The text of a document. -/
def ofText (limits : Limits) (text : String) : Except Fault Dump :=
  match Json.readWithin limits text with
  | .error e => .error (unread text e)
  | .ok v => ofJson limits v

/-! ## Files and log -/

/-- The part of the log that reading dumps writes. -/
def logSource : String := "jsxprop_lint.dump"

/-- What the log says of a document that has been read. -/
def parsedRecord (d : Dump) : Record :=
  ⟨.debug, logSource, "parsed dump: " ++ toString d.files.length ++ " file(s), "
    ++ toString d.elementCount ++ " element(s)"⟩

/-- What the log says of a file whose text could be read. -/
def loadingRecord (path : String) : Record :=
  ⟨.info, logSource, "loading element dump " ++ path⟩

/-- What opening a file gives: its octets, or why there are none. -/
abbrev Opened := Except DiskError (List UInt8)

/-- The text of a dump file. -/
def textOf (path : String) (opened : Opened) : Except Fault String :=
  if Path.hasNull path then .error .nullInPath
  else
    match opened with
    | .error reason => .error (.unreadable path reason)
    | .ok octets =>
        match Text.decodeUtf8 octets with
        | .error e => .error (.notUtf8 path e.flaw e.position)
        | .ok cs => .ok (String.ofList (Text.unifyNewlines cs))

/-- Reads a dump file. -/
def load (limits : Limits) (path : String) (opened : Opened) : Except Fault Dump :=
  match textOf path opened with
  | .error e => .error e
  | .ok text => ofText limits text

/-- What the log says of reading a dump file, in order. -/
def loadLog (limits : Limits) (path : String) (opened : Opened) : List Record :=
  match textOf path opened with
  | .error _ => []
  | .ok text =>
      loadingRecord path :: match ofText limits text with
        | .ok d => [d.parsedRecord]
        | .error _ => []

end Dump

end AttributeLint
