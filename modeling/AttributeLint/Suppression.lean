import AttributeLint.Diagnostic
import AttributeLint.Text.Glob

/-!
# Suppressions

Kinds of findings that are not to be reported, everywhere or in the files that a pattern covers. A
pattern covers a file that it names, whose name ends with it, or whose name matches it as a file
name pattern. The identifier `*` stands for every kind. Attribute names to be accepted are options,
not suppressions.

Identifiers are kept in groups, one for each pattern. A group that has nothing to say about a
finding is passed over without a look at the file.
-/

namespace AttributeLint

/-- The identifier that stands for every finding. -/
def everyId : String := "*"

/-- Where there are no groups, no pattern has two. -/
theorem Suppressions.nodup_nil : (([] : List (String × List String)).map Prod.fst).Nodup :=
  .nil

/-- What is suppressed, in the order in which it was first added. -/
structure Suppressions where
  /-- Identifiers suppressed everywhere. -/
  everywhere : List String := []
  /-- File patterns, each with the identifiers suppressed under it. -/
  inFiles : List (String × List String) := []
  /-- A pattern has one group. -/
  patterns_nodup : (inFiles.map Prod.fst).Nodup := by exact Suppressions.nodup_nil
  deriving DecidableEq, Repr

namespace Suppressions

/-- Suppresses an identifier everywhere. -/
def addEverywhere (s : Suppressions) (id : String) : Suppressions :=
  { s with everywhere := nameOnce s.everywhere id }

/-- The identifiers suppressed under a pattern. -/
def under (s : Suppressions) (pattern : String) : List String :=
  (s.inFiles.lookup pattern).getD []

/-- Suppresses an identifier in the files that a pattern covers. -/
def addInFiles (s : Suppressions) (id pattern : String) : Suppressions where
  everywhere := s.everywhere
  inFiles := Assoc.put pattern (nameOnce (s.under pattern) id) s.inFiles
  patterns_nodup := Assoc.nodup_put _ _ s.patterns_nodup

/-- Does a set of identifiers stand for a finding's? -/
def idsCover (ids : List String) (id : String) : Bool :=
  ids.contains id || ids.contains everyId

/-- Does a pattern cover a file? -/
def fileCovers (pattern file : String) : Bool :=
  pattern == file || pattern.toList.isSuffixOf file.toList || Text.Glob.matchesName pattern file

/-- Does one of the groups suppress a finding in a file? -/
def inGroup (id file : String) : List (String × List String) → Bool
  | [] => false
  | (pattern, ids) :: rest =>
      if !idsCover ids id then inGroup id file rest
      else if fileCovers pattern file then true
      else inGroup id file rest

/-- Is a finding suppressed in a file? -/
def suppresses (s : Suppressions) (id file : String) : Bool :=
  if idsCover s.everywhere id then true else inGroup id file s.inFiles

/-- Is the diagnostic not to be reported? -/
def hides (s : Suppressions) (d : Diagnostic) : Bool :=
  s.suppresses d.finding.id d.location.file

/-- The diagnostics to be reported. -/
def filter (s : Suppressions) (ds : List Diagnostic) : List Diagnostic :=
  ds.filter fun d => !s.hides d

end Suppressions

end AttributeLint
