/-!
# Paths

The text of a path without what does not matter to it: empty steps, and steps to the same place.
Steps to the parent stay, because where they lead depends on the disk.
-/

namespace AttributeLint.Path

/-- The runs of characters between slashes, given the characters of the current run, latest
first. -/
def splitAfter (run : List Char) : List Char → List (List Char)
  | [] => [run.reverse]
  | c :: rest => if c = '/' then run.reverse :: splitAfter [] rest else splitAfter (c :: run) rest

/-- The steps of a path. -/
def steps (path : String) : List String :=
  ((splitAfter [] path.toList).map String.ofList).filter fun s => s != "" && s != "."

/-- The root of a path: none, two slashes if there are exactly two, and one otherwise. -/
def root (path : String) : String :=
  match (path.toList.takeWhile (· == '/')).length with
  | 0 => ""
  | 2 => "//"
  | _ => "/"

/-- The path without empty steps and steps to the same place. -/
def clean (path : String) : String :=
  let text := root path ++ "/".intercalate (steps path)
  if text = "" then "." else text

/-- A path with a null character cannot be handed to the system. -/
def hasNull (path : String) : Bool :=
  path.toList.contains '\x00'

/-- The most octets of a step. -/
def longestStep : Nat := 255

/-- The most octets of a path. -/
def longest : Nat := 4095

end AttributeLint.Path
