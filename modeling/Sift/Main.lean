import Sift.Command.Run

/-!
# The command line tool

Reads what a command line names, runs it, and prints what it leaves.
-/

namespace Sift.Command

/-- Why a file cannot be read. -/
def reasonOf : IO.Error → String
  | .noFileOrDirectory _ code reason | .permissionDenied _ code reason
  | .inappropriateType _ code reason | .invalidArgument _ code reason
  | .resourceExhausted _ code reason =>
    reason ++ " (os error " ++ toString code ++ ")"
  | e => toString e

/-- The text of some bytes. -/
def decoded (bytes : ByteArray) : Except String String :=
  match String.fromUTF8? bytes with
  | some text => .ok text
  | none => .error "stream did not contain valid UTF-8"

/-- Reads a file. -/
def readFile (path : String) : IO (Except String String) := do
  try return decoded (← IO.FS.readBinFile path)
  catch e => return .error (reasonOf e)

/-- Reads standard input to its end. -/
def readStandardInput : IO (Except String String) := do
  try return decoded (← (← IO.getStdin).readBinToEnd)
  catch e => return .error (reasonOf e)

/-- The variables of the environment that options have. -/
def readVariables : IO (List (String × String)) :=
  Setting.environmentNames.filterMapM fun name => do
    return (← IO.getEnv name).map fun value => (name, value)

/-- Reads the files and variables that a command line names. -/
def readSources (arguments : List String) : IO Sources := do
  let found ← readVariables
  let paths := Arguments.namedPaths (List.lookup · found) arguments
  let (fromInput, named) := paths.partition Path.isStandardInput
  let files ← named.mapM fun path => return (path, ← readFile path)
  let input ← if fromInput.isEmpty then pure (.ok "") else readStandardInput
  return .ofRead found files input

end Sift.Command

/-- Runs the command line tool. -/
def main (arguments : List String) : IO UInt32 := do
  let outcome := Sift.Command.run (← Sift.Command.readSources arguments) arguments
  IO.print outcome.output
  IO.eprint outcome.errors
  return outcome.exit.toUInt32
