import Lisplet.Text.Letter
import Lisplet.Text.Quoted

/-!
# The arguments of the command line

The command line names one file and may ask for help or for the value of the last expression. Long
options may be shortened as long as they stay unambiguous, and two dashes end the options. The first
request for help wins over everything that comes after it, a missing file over arguments that make
no sense.
-/

namespace Lisplet.CommandLine

/-- What an option asks for. -/
inductive Flag where
  | help | printResult
  deriving DecidableEq, Repr

/-- The options. -/
def options : List (String × Flag) :=
  [("-h", .help), ("--help", .help), ("--print-result", .printResult)]

/-- An option with all its spellings. -/
def Flag.spelling : Flag → String
  | .help => "-h/--help"
  | .printResult => "--print-result"

/-- Why the arguments make no sense. -/
inductive UsageError where
  | ambiguous (argument : String) (candidates : List String)
  /-- An option that takes no value is given one. -/
  | ignoredValue (flag : Flag) (value : String)
  | missingFile
  | unrecognized (arguments : List String)
  deriving DecidableEq, Repr

/-- The wording of a usage error. -/
def UsageError.message : UsageError → String
  | .ambiguous argument candidates =>
    "ambiguous option: " ++ argument ++ " could match " ++ ", ".intercalate candidates
  | .ignoredValue flag value =>
    "argument " ++ flag.spelling ++ ": ignored explicit argument " ++ Text.quoted value
  | .missingFile => "the following arguments are required: file"
  | .unrecognized arguments => "unrecognized arguments: " ++ " ".intercalate arguments

/-- How an argument is read. -/
inductive Word where
  | operand (text : String)
  /-- The two dashes that end the options. -/
  | marker
  /-- Options, of which several can stand in one argument. -/
  | flags (flags : List Flag)
  /-- It looks like an option and is none. -/
  | unknown (text : String)
  deriving DecidableEq, Repr

/-- An argument that looks like a negative number, which is no option. -/
def isNegativeNumber (cs : List Char) : Bool :=
  let cs := if cs.getLast? == some '\n' then cs.dropLast else cs
  match cs with
  | '-' :: rest =>
    let fraction := (rest.dropWhile Text.isDecimal).drop 1
    (!rest.isEmpty && rest.all Text.isDecimal)
      || ((rest.dropWhile Text.isDecimal).head? == some '.' && !fraction.isEmpty
          && fraction.all Text.isDecimal)
  | _ => false

/-- A text up to its first equals sign and, if there is one, the text after it. -/
def splitValue (cs : List Char) : List Char × Option (List Char) :=
  match cs.dropWhile (· != '=') with
  | [] => (cs, none)
  | _ :: value => (cs.takeWhile (· != '='), some value)

/-- The options that a short option and the text right behind it stand for. Every character of the
text has to be a short option in turn; from the first one that is none on, the text is a value for
the option before it, which no option takes. -/
def expandShort (flag : Flag) : List Char → Except UsageError (List Flag)
  | [] => .ok [flag]
  | c :: rest =>
    match options.lookup (String.ofList ['-', c]) with
    | none => .error (.ignoredValue flag (String.ofList (c :: rest)))
    | some next => (expandShort next rest).map (flag :: ·)

/-- The options that a short option and all that follows it stand for. An equals sign in front of
further short options changes nothing; with nothing after it, it gives an empty value. -/
def readShort (flag : Flag) : List Char → Except UsageError (List Flag)
  | ['='] => .error (.ignoredValue flag "")
  | '=' :: rest => expandShort flag rest
  | rest => expandShort flag rest

/-- The option that a long spelling stands for. It takes no value behind an equals sign. -/
def readLong (flag : Flag) : Option (List Char) → Except UsageError (List Flag)
  | none => .ok [flag]
  | some value => .error (.ignoredValue flag (String.ofList value))

/-- An option that is more or less than one of the spellings: a long one that is shortened or given
a value, or a short one with something behind it. -/
def readInexact (cs : List Char) : Except UsageError (Option (List Flag)) :=
  match cs with
  | '-' :: '-' :: _ =>
    let (name, value) := splitValue cs
    match options.filter fun o => name.isPrefixOf o.1.toList with
    | [] => .ok none
    | [o] => (readLong o.2 value).map some
    | many => .error (.ambiguous (String.ofList cs) (many.map (·.1)))
  | '-' :: c :: rest =>
    match options.lookup (String.ofList ['-', c]) with
    | some flag => (readShort flag rest).map some
    | none => .ok none
  | _ => .ok none

/-- What an argument is when it is no option. -/
def notOption (text : String) : Word :=
  if isNegativeNumber text.toList || text.toList.contains ' ' then .operand text else .unknown text

/-- How an argument before the two dashes is read. Values behind options are found out about only
later, when the argument's turn comes. -/
def Word.read (text : String) : Except UsageError (Except UsageError Word) :=
  match text.toList with
  | '-' :: c :: rest =>
    match options.lookup text with
    | some flag => .ok (.ok (.flags [flag]))
    | none =>
      match readInexact ('-' :: c :: rest) with
      | .error (.ambiguous argument candidates) => .error (.ambiguous argument candidates)
      | .error e => .ok (.error e)
      | .ok (some asked) => .ok (.ok (.flags asked))
      | .ok none => .ok (.ok (notOption text))
  | _ => .ok (.ok (.operand text))

/-- How all arguments are read. -/
def readWords : List String → Except UsageError (List (Except UsageError Word))
  | [] => .ok []
  | "--" :: rest => .ok (.ok .marker :: rest.map fun text => .ok (.operand text))
  | text :: rest => do return (← Word.read text) :: (← readWords rest)

/-- What the command line asks for. -/
inductive Command where
  | help
  | run (file : String) (printResult : Bool)
  deriving DecidableEq, Repr

/-- What has been found among the arguments. -/
structure Found where
  file : Option String
  printResult : Bool
  /-- Arguments that make no sense. -/
  extras : List String
  deriving DecidableEq, Repr

/-- Takes words one after the other. The file takes the two dashes right before and after it
along. -/
def take (found : Found) : List (Except UsageError Word) → Except UsageError Command
  | [] =>
    match found.file with
    | none => .error .missingFile
    | some file =>
      if found.extras.isEmpty then .ok (.run file found.printResult)
      else .error (.unrecognized found.extras)
  | .error e :: _ => .error e
  | .ok (.flags flags) :: rest =>
    if flags.contains .help then .ok .help else take { found with printResult := true } rest
  | .ok (.unknown text) :: rest => take { found with extras := found.extras ++ [text] } rest
  | .ok (.operand text) :: rest =>
    match found.file, rest with
    | none, .ok .marker :: rest => take { found with file := some text } rest
    | none, rest => take { found with file := some text } rest
    | some _, rest => take { found with extras := found.extras ++ [text] } rest
  | .ok .marker :: rest =>
    match found.file, rest with
    | none, .ok (.operand text) :: rest => take { found with file := some text } rest
    | _, rest => take { found with extras := found.extras ++ ["--"] } rest

/-- What the arguments ask for. -/
def parse (arguments : List String) : Except UsageError Command := do
  take ⟨none, false, []⟩ (← readWords arguments)

/-- The line that shows how the program is called. -/
def usage : String := "usage: cloji [-h] [--print-result] file\n"

/-- The help text. -/
def helpText : String :=
  usage ++ "\nRun a Cloji script.\n\npositional arguments:\n"
    ++ "  file            script path, or - to read stdin\n\noptions:\n"
    ++ "  -h, --help      show this help message and exit\n"
    ++ "  --print-result  print the value of the last expression\n"

/-- The report on a usage error. -/
def UsageError.report (e : UsageError) : String := usage ++ "cloji: error: " ++ e.message ++ "\n"

end Lisplet.CommandLine
