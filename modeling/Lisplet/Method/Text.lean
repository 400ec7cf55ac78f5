import Lisplet.Method.Signature
import Lisplet.Property.Elements
import Lisplet.Text.Case
import Lisplet.Text.Letter
import Lisplet.Text.Search

/-!
# Methods of texts

What the methods do that scripts may call on texts. Arguments are given by position; a wrong number
of them or a wrong type is an error.
-/

namespace Lisplet.TextMethod

open Text

/-- A text as a value. -/
def ofChars (cs : List Char) : Value := .str (String.ofList cs)

/-- A new list of texts. -/
def listOf (parts : List (List Char)) : Action Value := Action.newList (parts.map ofChars).toArray

/-- What ends the lines of a text. -/
def lineEnds : LineEnds Char := ⟨isLineEnd, ('\r', '\n')⟩

/-- How many arguments a method takes. -/
def arity : TextMethod → Arity
  | .capitalize => .none "str.capitalize"
  | .casefold => .none "str.casefold"
  | .center => .expected "center" 1 2
  | .count => .taking "count" 1 3
  | .endswith => .taking "endswith" 1 3
  | .find => .taking "find" 1 3
  | .index => .taking "index" 1 3
  | .isalnum => .none "str.isalnum"
  | .isalpha => .none "str.isalpha"
  | .isdigit => .none "str.isdigit"
  | .islower => .none "str.islower"
  | .isspace => .none "str.isspace"
  | .isupper => .none "str.isupper"
  | .join => .one "str.join"
  | .ljust => .expected "ljust" 1 2
  | .lower => .none "str.lower"
  | .lstrip => .expected "lstrip" 0 1
  | .partition => .one "str.partition"
  | .removePrefix => .one "str.removeprefix"
  | .removeSuffix => .one "str.removesuffix"
  | .replace => .expected "replace" 2 3
  | .rfind => .taking "rfind" 1 3
  | .rjust => .expected "rjust" 1 2
  | .rpartition => .one "str.rpartition"
  | .rsplit => .taking "rsplit" 0 2
  | .rstrip => .expected "rstrip" 0 1
  | .split => .taking "split" 0 2
  | .splitlines => .taking "splitlines" 0 1
  | .startswith => .taking "startswith" 1 3
  | .strip => .expected "strip" 0 1
  | .swapcase => .none "str.swapcase"
  | .title => .none "str.title"
  | .upper => .none "str.upper"
  | .zfill => .one "str.zfill"

/-- The optional arguments that bound the part of the text a method looks at. The start may lie
beyond the end of the text, where nothing is found. -/
def window (length : Nat) (args : List Value) : Action (Nat × Nat) := do
  let (start, stop) ← match args with
    | [] => pure (none, none)
    | [a] => pure (← Arguments.bound a, none)
    | a :: b :: _ => pure (← Arguments.bound a, ← Arguments.bound b)
  let first := start.getD 0
  let first := if first < 0 then first + length else first
  return (first.toNat, (clampRange length none stop).2)

/-- A part to look for and the window to look in, which is looked at first. -/
def target (cs : List Char) (args : List Value) : Action (List Char × Nat × Nat) := do
  match args with
  | part :: bounds =>
    let window ← window cs.length bounds
    return (← Arguments.text part, window)
  | [] => Arguments.wrongCount

/-- The place where a part is found in a window. -/
def locate (search : List Char → List Char → Option Nat) (cs : List Char)
    (target : List Char × Nat × Nat) : Option Nat :=
  let (part, lo, hi) := target
  if hi < lo + part.length then none
  else (search part ((cs.take hi).drop lo)).map (· + lo)

/-- One of several texts passes a test. They are looked at one after the other. -/
def anyPasses (name : String) (test : List Char → Bool) : List Value → Action Bool
  | [] => return false
  | v :: rest => do
    let part ← Arguments.textOr v
      ("tuple for " ++ name ++ " must only contain str, not " ++ v.typeName)
    if test part then return true else anyPasses name test rest

/-- A test of one of the ends of a window, for a text or several texts. -/
def tests (name : String) (test : List Char → List Char → Bool) (cs : List Char)
    (args : List Value) : Action Value := do
  match args with
  | [] => Arguments.wrongCount
  | part :: bounds =>
    let (lo, hi) ← window cs.length bounds
    let passes := fun p : List Char => lo + p.length ≤ hi && test p ((cs.take hi).drop lo)
    match part with
    | .tuple _ items => return .bool (← anyPasses name passes items)
    | v =>
      let part ← Arguments.textOr v
        (name ++ " first arg must be str or a tuple of str, not " ++ v.typeName)
      return .bool (passes part)

/-- A test of all characters of a text that is not empty. -/
def everyChar (p : Char → Bool) (cs : List Char) : Value := .bool (!cs.isEmpty && cs.all p)

/-- The width and the character that padding takes. -/
def padding (args : List Value) : Action (Nat × Char) := do
  let (width, fill) ← match args with
    | [w] => pure (← Arguments.size w, [' '])
    | [w, f] =>
      pure (← Arguments.size w, ← Arguments.textOr f
        ("The fill character must be a unicode character, not " ++ f.typeName))
    | _ => Arguments.wrongCount
  match fill with
  | [c] =>
    if 100000000 < width then .raise (.raised .memory []) else return (width.toNat, c)
  | _ => Arguments.refused "The fill character must be exactly one character long"

/-- The characters that trimming drops. -/
def trimSet (name : String) (args : List Value) : Action (Char → Bool) := do
  match args with
  | [] | .nil :: _ => return isBlank
  | v :: _ =>
    let set ← Arguments.textOr v (name ++ " arg must be None or str")
    return fun c => set.contains c

/-- A separator, which must not be empty. -/
def separator (v : Value) (complaint : String) : Action (List Char) := do
  let sep ← Arguments.textOr v complaint
  if sep.isEmpty then .raise (.plain .value "empty separator") else return sep

/-- The single argument of a method. -/
def only (args : List Value) : Action Value :=
  match args with
  | [v] => return v
  | _ => Arguments.wrongCount

/-- Splitting at a separator, or at blanks when it is nil. -/
def splitBy (atBlanks : Option Nat → List Char → List (List Char))
    (atSeparator : List Char → Option Nat → List Char → List (List Char)) (cs : List Char)
    (args : List Value) : Action Value := do
  let (sep, limit) ← match args with
    | [] => pure (Value.nil, none)
    | [s] => pure (s, none)
    | s :: n :: _ => pure (s, ← Arguments.limit n)
  match sep with
  | .nil => listOf (atBlanks limit cs)
  | v =>
    let sep ← separator v ("must be str or None, not " ++ v.typeName)
    listOf (atSeparator sep limit cs)

/-- The parts around a separator as a tuple of three texts. -/
def partitioned (cut : List Char → List Char → Option (List Char × List Char))
    (otherwise : List (List Char)) (cs : List Char) (args : List Value) : Action Value := do
  let v ← only args
  let sep ← separator v ("must be str, not " ++ v.typeName)
  match cut sep cs with
  | some (before, after) => Action.newTuple [ofChars before, ofChars sep, ofChars after]
  | none => Action.newTuple (otherwise.map ofChars)

/-- Texts joined with the receiver between them. -/
def joinAll (sep : List Char) (args : List Value) : Action Value := do
  let v ← only args
  let hasElements := v.isIterable || match v with
    | .dict _ => true
    | _ => false
  let items ←
    if hasElements then Action.elements v else Arguments.refused "can only join an iterable"
  let parts ← items.zipIdx.mapM fun (v, i) =>
    match v.text? with
    | some s => pure s.toList
    | none => Arguments.refused
        ("sequence item " ++ toString i ++ ": expected str instance, " ++ v.typeName ++ " found")
  return ofChars (joined sep parts)

/-- An argument of a method that takes texts. Nil goes by its own name in the error. -/
def argument (name : String) (v : Value) : Action (List Char) :=
  let given := match v with
    | .nil => "None"
    | v => v.typeName
  Arguments.textOr v (name ++ " must be str, not " ++ given)

/-- The value of a method called on a text. -/
def call (m : TextMethod) (cs : List Char) (args : List Value) : Action Value := do
  m.arity.check args.length
  match m with
  | .capitalize => return ofChars (capitalized cs)
  | .casefold => return ofChars (toFolded cs)
  | .lower => return ofChars (toLower cs)
  | .upper => return ofChars (toUpper cs)
  | .title => return ofChars (toTitle cs)
  | .swapcase => return ofChars (caseSwapped cs)
  | .isalnum => return everyChar isLetterOrNumeral cs
  | .isalpha => return everyChar isLetter cs
  | .isdigit => return everyChar isDigit cs
  | .isspace => return everyChar isBlank cs
  | .islower => return .bool (allLower cs)
  | .isupper => return .bool (allUpper cs)
  | .center =>
    let (width, fill) ← padding args
    return ofChars (centred width fill cs)
  | .ljust =>
    let (width, fill) ← padding args
    return ofChars (paddedRight width fill cs)
  | .rjust =>
    let (width, fill) ← padding args
    return ofChars (paddedLeft width fill cs)
  | .zfill =>
    let (width, _) ← padding [← only args]
    return ofChars (zeroFilled '0' (fun c => c == '+' || c == '-') width cs)
  | .count =>
    let (part, lo, hi) ← target cs args
    if hi < lo + part.length then return .int 0
    else return .int (occurrences part ((cs.take hi).drop lo))
  | .find =>
    let t ← target cs args
    return .int (((locate find? cs t).map Int.ofNat).getD (-1))
  | .rfind =>
    let t ← target cs args
    return .int (((locate findLast? cs t).map Int.ofNat).getD (-1))
  | .index =>
    let t ← target cs args
    match locate find? cs t with
    | some i => return .int i
    | none => .raise .substringNotFound
  | .startswith => tests "startswith" List.isPrefixOf cs args
  | .endswith => tests "endswith" (fun p text => p.reverse.isPrefixOf text.reverse) cs args
  | .join => joinAll cs args
  | .strip =>
    let p ← trimSet "strip" args
    return ofChars (dropEndWhile p (cs.dropWhile p))
  | .lstrip => return ofChars (cs.dropWhile (← trimSet "lstrip" args))
  | .rstrip => return ofChars (dropEndWhile (← trimSet "rstrip" args) cs)
  | .partition => partitioned cut? [cs, [], []] cs args
  | .rpartition => partitioned cutLast? [[], [], cs] cs args
  | .removePrefix =>
    let part ← argument "removeprefix() argument" (← only args)
    return ofChars (if part.isPrefixOf cs then cs.drop part.length else cs)
  | .removeSuffix =>
    let part ← argument "removesuffix() argument" (← only args)
    return ofChars
      (if part.reverse.isPrefixOf cs.reverse then cs.take (cs.length - part.length) else cs)
  | .replace =>
    match args with
    | old :: new :: times =>
      let old ← argument "replace() argument 1" old
      let new ← argument "replace() argument 2" new
      let limit ← match times with
        | [] => pure none
        | n :: _ => Arguments.limit n
      return ofChars (Text.replace old new limit cs)
    | _ => Arguments.wrongCount
  | .split => splitBy (words isBlank) splitOn cs args
  | .rsplit => splitBy (wordsFromEnd isBlank) splitOnFromEnd cs args
  | .splitlines =>
    match args with
    | [] => listOf (lines lineEnds false cs)
    | v :: _ => do listOf (lines lineEnds (← Arguments.switch v) cs)

end Lisplet.TextMethod
