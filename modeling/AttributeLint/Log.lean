/-!
# Log records

What a run has to say about itself, apart from its findings. Records are values; who runs the check
decides which levels to show.
-/

namespace AttributeLint

/-- The weight of a record, ascending. -/
inductive Level where
  | debug
  | info
  | warning
  | error
  deriving DecidableEq, Repr

namespace Level

/-- The name of a level. -/
def name : Level → String
  | .debug => "DEBUG"
  | .info => "INFO"
  | .warning => "WARNING"
  | .error => "ERROR"

/-- The rank of a level. -/
def rank : Level → Nat
  | .debug => 0
  | .info => 1
  | .warning => 2
  | .error => 3

end Level

/-- One record. -/
structure Record where
  level : Level
  /-- The part of the program that speaks. -/
  source : String
  message : String
  deriving DecidableEq, Repr

namespace Record

/-- Is the record at least as grave as a level? -/
def reaches (least : Level) (r : Record) : Bool :=
  decide (least.rank ≤ r.level.rank)

/-- Level, source and message. -/
def text (r : Record) : String :=
  r.level.name ++ " " ++ r.source ++ ": " ++ r.message

/-- The record as a line of a log, with the level in five columns. -/
def line (r : Record) : String :=
  let name := r.level.name.toList.take 5
  "[" ++ String.ofList (name ++ List.replicate (5 - name.length) ' ') ++ "] " ++ r.source ++ ": "
    ++ r.message ++ "\n"

end Record

end AttributeLint
