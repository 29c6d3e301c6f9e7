import AttributeLint.Assoc
import AttributeLint.Fault
import AttributeLint.Path

/-!
# Folders

A tree of files held as a value, seen from a working folder. A place is the steps that lead to it
from there, with the steps to the parent, if any, in front; the places of absolute paths start at
the outermost folder. A folder exists if a file lies in it; the working folder, those around it and
the outermost one always exist. Opening and writing follow a path step by step, so a step through a
file, or through a folder that does not exist, or one that is too long, fails as it does on a disk.
-/

namespace AttributeLint

/-- Files by the steps that lead to them. -/
structure Folder where
  files : List (List String × List UInt8) := []

namespace Folder

/-- Is there a file at the place? -/
def isFile (f : Folder) (place : List String) : Bool :=
  Assoc.has place f.files

/-- The step to the parent. -/
def parentStep : String := ".."

/-- Is the place the working folder or around it? -/
def isAround (place : List String) : Bool :=
  place.all (· == parentStep)

/-- The outermost folder. -/
def outermost : List String := ["/"]

/-- Is the place a folder? -/
def isFolder (f : Folder) (place : List String) : Bool :=
  isAround place || place == outermost || f.files.any fun p => place.isPrefixOf p.1 && place != p.1

/-- The parent of a folder. -/
def parent (place : List String) : List String :=
  if isAround place then parentStep :: place
  else if place = outermost then outermost
  else place.dropLast

/-- The place that steps lead to from a folder. The last step need not exist. -/
def follow (f : Folder) (place : List String) : List String → Except DiskError (List String)
  | [] => .ok place
  | step :: rest =>
      if step = parentStep then f.follow (parent place) rest
      else if Path.longestStep < step.utf8ByteSize then .error .nameTooLong
      else
        let next := place ++ [step]
        if rest.isEmpty || f.isFolder next then f.follow next rest
        else if f.isFile next then .error .notDirectory
        else .error .notFound

/-- The place of a path. -/
def locate (f : Folder) (path : String) : Except DiskError (List String) :=
  if Path.longest < (Path.clean path).utf8ByteSize then .error .nameTooLong
  else f.follow (if Path.root path = "" then [] else outermost) (Path.steps path)

/-- Is the place below the working folder? -/
def isInside (place : List String) : Bool :=
  place.head? != some parentStep && place.take 1 != outermost

/-- The files below the working folder. -/
def inside (f : Folder) : List (List String × List UInt8) :=
  f.files.filter fun p => isInside p.1

/-- The octets of the file at a path. -/
def openFile (f : Folder) (path : String) : Except DiskError (List UInt8) :=
  match f.locate path with
  | .error e => .error e
  | .ok place =>
      match f.files.lookup place with
      | some octets => .ok octets
      | none => .error (if f.isFolder place then .isDirectory else .notFound)

/-- The folder after a file has been written. -/
def writeFile (f : Folder) (path : String) (octets : List UInt8) : Except DiskError Folder :=
  match f.locate path with
  | .error e => .error e
  | .ok place =>
      if f.isFolder place then .error .isDirectory
      else .ok ⟨Assoc.put place octets f.files⟩

/-- The folder after a text has been saved in a file. -/
def save (f : Folder) (path text : String) : Except Fault Folder :=
  if Path.hasNull path then .error .nullInPath
  else
    match f.writeFile path text.toUTF8.toList with
    | .ok next => .ok next
    | .error reason => .error (.unwritable (Path.clean path) reason)

end Folder

end AttributeLint
