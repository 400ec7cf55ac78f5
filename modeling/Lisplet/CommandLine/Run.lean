import Lisplet.CommandLine.Source
import Lisplet.CommandLine.Usage
import Lisplet.Script
import Lisplet.Settings

/-!
# Running a command

What the program prints for its arguments, and how it ends. Errors of the script are recorded and
reported; only an unknown log level, a path that cannot be one, bytes that are no text and a value or
an error without a text end the program with an error of their own.
-/

namespace Lisplet.CommandLine

/-- What a run of the program leaves behind. -/
structure Result where
  out : String
  err : String
  /-- The exit code, or an error with its report. -/
  exit : Except (String × Failure) Nat

/-- A run that prints a message for the user and ends with a code. -/
def Result.complaint (err : String) (code : Nat) : Result := ⟨"", err, .ok code⟩

/-- A run that ends with an error. -/
def Result.crash (fault : Fault) : Result := ⟨"", "", .error (fault.text, .fresh fault)⟩

/-! ## Logging -/

/-- The log levels by name. -/
def levels : List (String × Nat) :=
  [("CRITICAL", 50), ("FATAL", 50), ("ERROR", 40), ("WARN", 30), ("WARNING", 30), ("INFO", 20),
   ("DEBUG", 10), ("NOTSET", 0)]

/-- The least severity that is logged. -/
def threshold (env : Environment) : Except Fault Nat :=
  let level := Settings.logLevel env
  match levels.lookup level with
  | some n => .ok n
  | none => .error (.unknownLevel (Text.quoted level))

/-- A line of the log. -/
structure LogLine where
  severity : Nat
  level : String
  origin : String
  text : String
  deriving DecidableEq, Repr

/-- The line for a source that has been read. -/
def parsedLine (p : Program Value) : LogLine :=
  ⟨10, "DEBUG", "cloji.reader.parser",
    "Parsed " ++ toString p.items.length ++ " top-level form(s) over " ++ toString p.line
      ++ " line(s)"⟩

/-- The line for a program that is about to run. -/
def executingLine (p : Program Value) : LogLine :=
  ⟨10, "DEBUG", "cloji.interpreter", "Executing " ++ toString p.items.length ++ " form(s)"⟩

/-- The line for an error of the script. -/
def failedLine (report : String) : LogLine :=
  ⟨30, "WARNING", "cloji.interpreter", "Script failed: " ++ report⟩

/-- The lines of the log that are severe enough. -/
def logText (least : Nat) (lines : List LogLine) : String :=
  String.join ((lines.filter (least ≤ ·.severity)).map fun line =>
    line.level ++ " " ++ line.origin ++ ": " ++ line.text ++ "\n")

/-! ## Running -/

/-- Runs a source and prints the value of its last expression if that is asked for. -/
def runSource (env : Environment) (least : Nat) (printResult : Bool) (source : String) : Result :=
  let store := Store.initial (Settings.denylist env)
  match (Script.create [] false) store with
  | .done script store =>
    let log := match Script.read source store with
      | .done p _ => [parsedLine p, executingLine p]
      | _ => []
    match script.exec source store with
    | (.value v, store) =>
      let err := logText least log
      if printResult && !v.isNullish then
        match store.plain v with
        | .ok text => ⟨store.output ++ text ++ "\n", err, .ok 0⟩
        | .error fault => ⟨store.output, err, .error (fault.text, .fresh fault)⟩
      else ⟨store.output, err, .ok 0⟩
    | (.recorded report f, store) =>
      let err := logText least (log ++ [failedLine report])
      ⟨store.output, err ++ f.kind.name ++ ": " ++ report ++ "\n", .ok 1⟩
    | (.raised report f, store) =>
      let err := logText least log
      if f.kind.isLanguage then ⟨store.output, err ++ "SyntaxError: " ++ report ++ "\n", .ok 1⟩
      else ⟨store.output, err, .error (report, f)⟩
    | (.exhausted, store) => ⟨store.output, logText least log, .ok 1⟩
  | _ => .complaint "" 1

/-- The error for bytes that are no text. -/
def undecodable : Fault := .plain .decoding "invalid UTF-8"

/-- The error for a path with a character that no path can have. -/
def badPath : Fault := .plain .value "embedded null byte"

/-- Runs what a file or the standard input holds. -/
def runContent (env : Environment) (least : Nat) (printResult : Bool) (content : ByteArray) :
    Result :=
  match decode content with
  | some source => runSource env least printResult source
  | none => .crash undecodable

/-- Runs a file. A dash stands for the standard input. -/
def runFile (env : Environment) (least : Nat) (printResult : Bool) (d : Directory)
    (stdin : StandardInput) (file : String) : Result :=
  if file == "-" then runContent env least printResult stdin.bytes
  else if file.toList.contains '\x00' then .crash badPath
  else
    let path := Path.ofText file
    match d.read path with
    | .ok content => runContent env least printResult content
    | .error fault => .complaint (fault.report path.text) 1

/-- Runs the program in a directory. -/
def run (env : Environment) (d : Directory) (stdin : StandardInput) (arguments : List String) :
    Result :=
  match parse arguments with
  | .error e => .complaint e.report 2
  | .ok .help => ⟨helpText, "", .ok 0⟩
  | .ok (.run file printResult) =>
    match threshold env with
    | .error fault => .crash fault
    | .ok least => runFile env least printResult d stdin file

end Lisplet.CommandLine
