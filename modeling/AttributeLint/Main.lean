import AttributeLint.CommandLine.Session
import AttributeLint.Report.Ansi

/-!
# The command

The outer layer: it reads the dump files that the arguments name, hands them to the run, prints
what the run leaves and writes its files. Elapsed times are not measured and count as zero. The
limits of the machine are those of a common setup.
-/

namespace AttributeLint.Command

/-- The number of a system error, which some calls deliver negated. -/
def errorNumber (code : UInt32) : Nat :=
  if code < 0x80000000 then code.toNat else (0 - code).toNat

/-- The cause behind the number and wording of a system error. -/
def numbered (code : UInt32) (reason : String) : DiskError :=
  match errorNumber code with
  | 2 => .notFound
  | 20 => .notDirectory
  | 21 => .isDirectory
  | 36 => .nameTooLong
  | n => .other n reason

/-- The cause of a system error. -/
def diskError : IO.Error → DiskError
  | .noFileOrDirectory _ code reason => numbered code reason
  | .inappropriateType _ code reason => numbered code reason
  | .permissionDenied _ code reason => numbered code reason
  | .resourceExhausted _ code reason => numbered code reason
  | .invalidArgument _ code reason => numbered code reason
  | .otherError code reason => numbered code reason
  | e => .other 5 (toString e)

/-- Opens one file. -/
def openFile (path : String) : IO Dump.Opened := do
  try
    let octets ← IO.FS.readBinFile path
    return .ok octets.toList
  catch e => return .error (diskError e)

/-- Opens the dumps that arguments name; none if the arguments are refused. -/
def openDumps (args : List String) : IO (List (String × Dump.Opened)) :=
  match CommandLine.parse args with
  | .error _ => return []
  | .ok settings => settings.dumps.mapM fun path => do
      return (Path.clean path, ← openFile (Path.clean path))

/-- Is the variable set to something? -/
def isNonEmptyEnv (name : String) : IO Bool := do
  return ((← IO.getEnv name).getD "") ≠ ""

/-- Are colours to be written to the terminal? -/
def wantsColours (tty : Bool) : IO Bool := do
  if ← isNonEmptyEnv "NO_COLOR" then return false
  if ← isNonEmptyEnv "FORCE_COLOR" then return true
  return tty && (← IO.getEnv "TERM") != some "dumb"

/-- The limits within which the command works. -/
def limits : Limits where
  digits := 4300
  depth := some 990
  blanks := some 0xfffffffff

/-- What surrounds the command. -/
def surroundings : IO CommandLine.Surroundings := do
  let tty ← (← IO.getStdout).isTty
  return {
    tty := tty
    paint := Report.Ansi.paint (← wantsColours tty)
    sarifPath := ← IO.getEnv "REPORT_GENERATE_SARIF"
    limits := limits }

/-- Writes one file. -/
def write (o : Report.Output) : IO (Option Fault) := do
  try
    IO.FS.writeFile (Path.clean o.path) o.content
    return none
  catch e => return some (.unwritable (Path.clean o.path) (diskError e))

/-- Writes files in order, up to the first fault. -/
def writeAll : List Report.Output → IO (Option Fault)
  | [] => return none
  | o :: rest => do
      match ← write o with
      | some f => return some f
      | none => writeAll rest

/-- Ends with the code of the run; a fault that is not the input's is told and ends with 1. -/
def finish (ending : CommandLine.Ending) (fault : Option Fault) : IO UInt32 := do
  match fault, ending with
  | some f, _ => IO.eprintln f.message; return 1
  | none, .failed f => IO.eprintln f.message; return 1
  | none, .exit code => return code.toUInt32
  | none, .stopped code => return code.toUInt32

end AttributeLint.Command

/-- Runs the command. -/
def main (args : List String) : IO UInt32 := do
  let opened ← AttributeLint.Command.openDumps args
  let outcome := AttributeLint.CommandLine.run args (← AttributeLint.Command.surroundings)
    fun path => (opened.lookup path).getD (.error .notFound)
  IO.print outcome.out
  IO.eprint outcome.err
  AttributeLint.Command.finish outcome.ending (← AttributeLint.Command.writeAll outcome.outputs)
