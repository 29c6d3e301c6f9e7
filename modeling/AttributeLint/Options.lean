import AttributeLint.Fault
import AttributeLint.Text.Sorted

/-!
# Options

The one option of the check is the set of names that are always accepted. It is kept as a sorted
list without repetitions, so two options are equal exactly when they accept the same names. Options
come from a list of names, or from a configuration value: nothing, an object with the one key
`ignore`, or a list of at most one such object.
-/

namespace AttributeLint

/-- No names are in order. -/
theorem Options.ascending_nil : ([] : List String).Pairwise (· < ·) :=
  .nil

/-- The options of a check. -/
structure Options where
  /-- The accepted names. -/
  ignore : List String := []
  /-- The names are in order, each once. -/
  ascending : ignore.Pairwise (· < ·) := by exact Options.ascending_nil
  deriving DecidableEq, Repr

namespace Options

/-- The only key of an options object. -/
def ignoreKey : String := "ignore"

/-- The options that accept the given names. -/
def ofNames (names : List String) : Options :=
  ⟨Text.distinct names, Text.pairwise_distinct names⟩

/-- Is the name always accepted? -/
def ignores (o : Options) (name : String) : Bool :=
  o.ignore.contains name

/-- An entry of the list of ignored names: a text with at least one character. -/
def checkEntry (entry : Json) : Except Fault String :=
  match entry with
  | .str s => if s = "" then .error (.ignoreEntry entry) else .ok s
  | _ => .error (.ignoreEntry entry)

/-- The options given by the value of `ignore`: nothing, a list of names, or an object whose keys
are the names. -/
def readIgnore (v : Json) : Except Fault Options :=
  match v with
  | .null => .ok {}
  | .str s => .error (.ignoreIsText s)
  | .arr entries => do return ofNames (← entries.mapM checkEntry)
  | .obj fields => do return ofNames (← fields.mapM fun f => checkEntry (.str f.1))
  | _ => .error (.notIterable v)

/-- The keys of an options object that mean nothing, sorted. -/
def unknownKeys (fields : List (String × Json)) : List String :=
  Text.distinct ((fields.map Prod.fst).filter (· != ignoreKey))

/-- The options given by an options object. -/
def readObject (v : Json) : Except Fault Options :=
  match v with
  | .obj fields =>
      if (unknownKeys fields).isEmpty then readIgnore ((fields.lookup ignoreKey).getD .null)
      else .error (.unknownOptions (unknownKeys fields))
  | _ => .error (.optionsKind v)

/-- The options given by a configuration value. -/
def readJson (v : Json) : Except Fault Options :=
  match v with
  | .null => .ok {}
  | .arr [] => .ok {}
  | .arr [only] => readObject only
  | .arr several => .error (.severalOptions several.length)
  | _ => readObject v

/-- The options given by the value of `ignore`, for a host. -/
def ofIgnore (limits : Limits) (v : Json) : Except Fault Options :=
  Fault.raise limits (readIgnore v)

/-- The options given by a configuration value, for a host. -/
def ofJson (limits : Limits) (v : Json) : Except Fault Options :=
  Fault.raise limits (readJson v)

/-- The options as a configuration value. -/
def toJson (o : Options) : Json :=
  .obj [(ignoreKey, .arr (o.ignore.map .str))]

end Options

end AttributeLint
