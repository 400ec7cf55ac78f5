import Lisplet.Text.Search
import Lisplet.Text.Case

/-!
# Settings

What the variables of the environment say: which names scripts may not touch, whether errors are
raised, and how much is logged.
-/

namespace Lisplet

/-- The variables of the environment. -/
abbrev Environment := List (String × String)

namespace Settings

/-- The parts of a text between colons and commas. -/
def splitNames : List Char → List (List Char)
  | [] => [[]]
  | c :: rest =>
    if c == ':' || c == ',' then [] :: splitNames rest
    else
      match splitNames rest with
      | [] => [[c]]
      | first :: others => (c :: first) :: others

/-- Adds a name to a list, unless it is empty or there already. -/
def addName (names : List String) (name : String) : List String :=
  if name.isEmpty || names.contains name then names else names ++ [name]

/-- Some names and those that a text lists between colons and commas. -/
def listNames (defaults : List String) (text : String) : List String :=
  let names := (splitNames text.toList).map fun part => String.ofList (Text.trimmed part)
  names.foldl addName defaults

/-- Some names and those that a variable lists. -/
def namesFrom (env : Environment) (name : String) (defaults : List String) : List String :=
  listNames defaults ((env.lookup name).getD "")

/-- The names that scripts may never touch. -/
def alwaysForbidden : List String := ["prototype", "constructor", "__proto__"]

/-- The names that scripts may not touch. -/
def denylist (env : Environment) : List String :=
  namesFrom env "CLOJI_FORBIDDEN_PROPS" alwaysForbidden

/-- Errors are raised unless a variable says otherwise. -/
def throwOnError (env : Environment) : Bool :=
  match env.lookup "CLOJI_THROW_ON_ERROR" with
  | none => true
  | some raw =>
    let word := String.ofList (Text.toLower (Text.trimmed raw.toList))
    !(["0", "false", "no", "off"].contains word)

/-- The name of the log level when none is given. -/
def defaultLevel : String := "WARNING"

/-- The name of the log level. -/
def logLevel (env : Environment) : String :=
  let raw := (env.lookup "CLOJI_LOG_LEVEL").getD defaultLevel
  let level := String.ofList (Text.toUpper (Text.trimmed raw.toList))
  if level.isEmpty then defaultLevel else level

end Settings

end Lisplet
