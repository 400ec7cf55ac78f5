import Lisplet.CommandLine.Run

/-!
# The program

Reads the arguments, the environment and the file, and prints what a run of the command leaves
behind.
-/

namespace Lisplet.CommandLine

/-- The variables of the environment that the program looks at. -/
def knownVariables : List String :=
  ["CLOJI_FORBIDDEN_PROPS", "CLOJI_THROW_ON_ERROR", "CLOJI_LOG_LEVEL"]

/-- Reads the environment. -/
def readEnvironment : IO Environment :=
  knownVariables.filterMapM fun name => do return (← IO.getEnv name).map (name, ·)

/-- Reads a stream to its end. -/
partial def readToEnd (stream : IO.FS.Stream) (before : ByteArray) : IO ByteArray := do
  let chunk ← stream.read 65536
  if chunk.isEmpty then return before else readToEnd stream (before ++ chunk)

/-- Why the system could not read a file. A path that cannot be followed is found out about when the
file is opened, a directory only when it is read, where its name is not known any more. -/
def readFaultOf : IO.Error → ReadFault
  | .inappropriateType (some _) _ _ => .notDirectory
  | .inappropriateType none _ _ => .isDirectory
  | .invalidArgument _ _ _ => .nameTooLong
  | _ => .notFound

/-- Runs a file of the system. A dash stands for the standard input. -/
def runSystemFile (env : Environment) (least : Nat) (printResult : Bool) (file : String) :
    IO Result := do
  if file == "-" then
    return runContent env least printResult (← readToEnd (← IO.getStdin) .empty)
  else
    let path := (Path.ofText file).text
    try
      return runContent env least printResult (← IO.FS.readBinFile path)
    catch e => return .complaint ((readFaultOf e).report path) 1

/-- Runs the program with the files of the system. -/
def runSystem (arguments : List String) : IO Result := do
  let env ← readEnvironment
  match parse arguments, threshold env with
  | .ok (.run file printResult), .ok least => runSystemFile env least printResult file
  | _, _ => return run env [] "" arguments

end Lisplet.CommandLine

/-- Runs a script file and gives the exit code. -/
def main (arguments : List String) : IO UInt32 := do
  let result ← Lisplet.CommandLine.runSystem arguments
  IO.print result.out
  IO.eprint result.err
  match result.exit with
  | .ok code => return code.toUInt32
  | .error (report, failure) =>
    IO.eprintln (failure.kind.name ++ ": " ++ report)
    return 1
