import Lisplet.Method.Signature
import Lisplet.Numeral
import Lisplet.Property.Elements
import Lisplet.Text.Encoding
import Lisplet.Text.Search

/-!
# Methods of bytes

What the methods of bytes do. They work like those of texts, with single bytes in the place of
characters and the letters, digits and blanks of ASCII. A method that changes nothing gives the
bytes themselves.
-/

namespace Lisplet.BytesMethod

open Text

/-- How many arguments a method takes. -/
def arity : BytesMethod → Arity
  | .capitalize => .none "bytes.capitalize"
  | .center => .expected "center" 1 2
  | .count => .taking "count" 1 3
  | .decode => .taking "decode" 0 2
  | .endswith => .taking "endswith" 1 3
  | .expandtabs => .taking "expandtabs" 0 1
  | .find => .taking "find" 1 3
  | .fromhex => .one "bytes.fromhex"
  | .hex => .taking "hex" 0 2
  | .index => .taking "index" 1 3
  | .isalnum => .none "bytes.isalnum"
  | .isalpha => .none "bytes.isalpha"
  | .isascii => .none "bytes.isascii"
  | .isdigit => .none "bytes.isdigit"
  | .islower => .none "bytes.islower"
  | .isspace => .none "bytes.isspace"
  | .istitle => .none "bytes.istitle"
  | .isupper => .none "bytes.isupper"
  | .join => .one "bytes.join"
  | .ljust => .expected "ljust" 1 2
  | .lower => .none "bytes.lower"
  | .lstrip => .expected "lstrip" 0 1
  | .maketrans => .expected "maketrans" 2 2
  | .partition => .one "bytes.partition"
  | .removePrefix => .one "bytes.removeprefix"
  | .removeSuffix => .one "bytes.removesuffix"
  | .replace => .expected "replace" 2 3
  | .rfind => .taking "rfind" 1 3
  | .rindex => .taking "rindex" 1 3
  | .rjust => .expected "rjust" 1 2
  | .rpartition => .one "bytes.rpartition"
  | .rsplit => .taking "rsplit" 0 2
  | .rstrip => .expected "rstrip" 0 1
  | .split => .taking "split" 0 2
  | .splitlines => .taking "splitlines" 0 1
  | .startswith => .taking "startswith" 1 3
  | .strip => .expected "strip" 0 1
  | .swapcase => .none "bytes.swapcase"
  | .title => .none "bytes.title"
  | .translate => .taking "translate" 1 2
  | .upper => .none "bytes.upper"
  | .zfill => .one "bytes.zfill"

/-! ## Arguments -/

/-- The error for a value that is no bytes. -/
def notBytes {α : Type} (v : Value) : Action α :=
  Arguments.refused ("a bytes-like object is required, not '" ++ v.typeName ++ "'")

/-- An argument that must be bytes. -/
def bytes (v : Value) : Action (List UInt8) :=
  match v with
  | .bytes _ data => return data
  | v => notBytes v

/-- An argument that must be bytes or a single byte. -/
def bytesOrByte (v : Value) : Action (List UInt8) :=
  match v, v.index? with
  | .bytes _ data, _ => return data
  | _, some i =>
    match byte? i with
    | some b => return [b]
    | none => .raise (.plain .value "byte must be in range(0, 256)")
  | v, none =>
    Arguments.refused
      ("argument should be integer or bytes-like object, not '" ++ v.typeName ++ "'")

/-- The name of a value's type in an error about an argument. Nil goes by its own name. -/
def givenName : Value → String
  | .nil => "None"
  | v => v.typeName

/-- An argument that must be a text. -/
def textNamed (method name : String) (v : Value) : Action String :=
  match v.text? with
  | some s =>
    if s.toList.contains '\x00' then .raise (.plain .value "embedded null character") else return s
  | none =>
    Arguments.refused
      (method ++ "() argument '" ++ name ++ "' must be str, not " ++ givenName v)

/-- The optional arguments that bound the part of the bytes a method looks at. -/
def window (length : Nat) (args : List Value) : Action (Nat × Nat) := do
  let (start, stop) ← match args with
    | [] => pure (none, none)
    | [a] => pure (← Arguments.bound a, none)
    | a :: b :: _ => pure (← Arguments.bound a, ← Arguments.bound b)
  let first := start.getD 0
  let first := if first < 0 then first + length else first
  return (first.toNat, (clampRange length none stop).2)

/-- A part to look for and the window to look in, which is looked at first. -/
def target (data : List UInt8) (args : List Value) : Action (List UInt8 × Nat × Nat) := do
  match args with
  | part :: bounds =>
    let window ← window data.length bounds
    return (← bytesOrByte part, window)
  | [] => Arguments.wrongCount

/-- The place where a part is found in a window. -/
def locate (search : List UInt8 → List UInt8 → Option Nat) (data : List UInt8) (args : List Value) :
    Action (Option Nat) := do
  let (part, lo, hi) ← target data args
  if hi < lo + part.length then return none
  else return (search part ((data.take hi).drop lo)).map (· + lo)

/-- The place where a part is found, or minus one. -/
def placeOrNone (place : Option Nat) : Value := .int ((place.map Int.ofNat).getD (-1))

/-- The place where a part must be found. -/
def requiredPlace : Option Nat → Action Value
  | some i => return .int i
  | none => .raise (.plain .value "subsection not found")

/-! ## Results -/

/-- The result of a method that changed nothing, or a part of the bytes. -/
def keptOr (receiver : Value) (data result : List UInt8) : Action Value :=
  if result == data then return receiver else Action.copiedBytes result

/-- The result of a method that changed nothing, or new bytes. -/
def keptOrNew (receiver : Value) (data result : List UInt8) : Action Value :=
  if result == data then return receiver else Action.newBytes result

/-- Several results, each of which may be the bytes themselves. -/
def keptOrAll (receiver : Value) (data : List UInt8) : List (List UInt8) → Action (List Value)
  | [] => return []
  | part :: rest => do
    let here ← keptOr receiver data part
    return here :: (← keptOrAll receiver data rest)

/-- A list of results, each of which may be the bytes themselves. -/
def listOf (receiver : Value) (data : List UInt8) (parts : List (List UInt8)) : Action Value := do
  Action.newList (← keptOrAll receiver data parts).toArray

/-! ## Tests -/

/-- One of several bytes passes a test. They are looked at one after the other. -/
def anyPasses (test : List UInt8 → Bool) : List Value → Action Bool
  | [] => return false
  | v :: rest => do if test (← bytes v) then return true else anyPasses test rest

/-- A test of one of the ends of a window, for bytes or several bytes. -/
def tests (name : String) (test : List UInt8 → List UInt8 → Bool) (data : List UInt8)
    (args : List Value) : Action Value := do
  match args with
  | [] => Arguments.wrongCount
  | part :: bounds =>
    let (lo, hi) ← window data.length bounds
    let passes := fun p : List UInt8 => lo + p.length ≤ hi && test p ((data.take hi).drop lo)
    match part with
    | .tuple _ items => return .bool (← anyPasses passes items)
    | .bytes _ part => return .bool (passes part)
    | v =>
      Arguments.refused
        (name ++ " first arg must be bytes or a tuple of bytes, not " ++ v.typeName)

/-- A test of all bytes, of which there must be one. -/
def everyByte (p : UInt8 → Bool) (data : List UInt8) : Value := .bool (!data.isEmpty && data.all p)

/-! ## Cutting and joining -/

/-- What ends the lines of bytes. -/
def lineEnds : LineEnds UInt8 := ⟨fun b => b == 10 || b == 13, (13, 10)⟩

/-- The bytes that trimming drops. -/
def trimSet (args : List Value) : Action (UInt8 → Bool) := do
  match args with
  | [] | .nil :: _ => return Ascii.isBlank
  | v :: _ =>
    let set ← bytes v
    return fun b => set.contains b

/-- A separator, which must not be empty. -/
def separator (v : Value) : Action (List UInt8) := do
  let sep ← bytes v
  if sep.isEmpty then .raise (.plain .value "empty separator") else return sep

/-- Splitting at a separator, or at blanks when it is nil. What is left when no splits at blanks are
allowed is always a copy. -/
def splitBy (atBlanks : Option Nat → List UInt8 → List (List UInt8))
    (atSeparator : List UInt8 → Option Nat → List UInt8 → List (List UInt8)) (receiver : Value)
    (data : List UInt8) (args : List Value) : Action Value := do
  let (sep, limit) ← match args with
    | [] => pure (Value.nil, none)
    | [s] => pure (s, none)
    | s :: n :: _ => pure (s, ← Arguments.limit n)
  match sep, limit with
  | .nil, some 0 => do Action.newList (← (atBlanks limit data).mapM Action.copiedBytes).toArray
  | .nil, limit => listOf receiver data (atBlanks limit data)
  | v, limit => do listOf receiver data (atSeparator (← separator v) limit data)

/-- The parts around a separator as a tuple. Without it the bytes themselves stand at the first or
the last place. -/
def partitioned (cut : List UInt8 → List UInt8 → Option (List UInt8 × List UInt8)) (atEnd : Bool)
    (receiver : Value) (data : List UInt8) (v : Value) : Action Value := do
  let empty := Value.bytes 0 []
  match cut (← separator v) data with
  | some (before, after) =>
    Action.newTuple [← Action.copiedBytes before, v, ← Action.copiedBytes after]
  | none => Action.newTuple (if atEnd then [empty, empty, receiver] else [receiver, empty, empty])

/-- The bytes among values that are to be joined, counted from a place. -/
def bytesAll : (i : Nat) → List Value → Action (List (List UInt8))
  | _, [] => return []
  | i, .bytes _ data :: rest => do return data :: (← bytesAll (i + 1) rest)
  | i, v :: _ =>
    Arguments.refused
      ("sequence item " ++ toString i ++ ": expected a bytes-like object, " ++ v.typeName
        ++ " found")

/-- Bytes joined with the receiver between them. -/
def joinAll (data : List UInt8) (v : Value) : Action Value := do
  let hasElements := v.isIterable || match v with
    | .dict _ => true
    | _ => false
  let items ←
    if hasElements then Action.elements v else Arguments.refused "can only join an iterable"
  let parts ← bytesAll 0 items
  match items with
  | [single] => return single
  | _ => Action.newBytes (joined data parts)

/-! ## Padding -/

/-- The width and the byte that padding takes. -/
def padding (name : String) (args : List Value) : Action (Nat × UInt8) := do
  let width ← Arguments.size (args.getD 0 .nil)
  let fill : UInt8 ← match args[1]? with
    | none => pure 32
    | some (Value.bytes _ [b]) => pure b
    | some v =>
      Arguments.refused
        (name ++ "() argument 2 must be a byte string of length 1, not " ++ givenName v)
  if 100000000 < width then .raise (.raised .memory []) else return (width.toNat, fill)

/-! ## Hexadecimal text -/

/-- The text of one byte. -/
def hexOf (b : UInt8) : List Char := hexDigits 2 b.toNat

/-- The texts of bytes in groups of a size, the first of which may be smaller. -/
def hexGroups (size first : Nat) : List UInt8 → List (List Char)
  | [] => []
  | b :: rest =>
    match hexGroups size (if first ≤ 1 then size else first - 1) rest with
    | [] => [hexOf b]
    | group :: groups =>
      if first ≤ 1 then hexOf b :: group :: groups else (hexOf b ++ group) :: groups

/-- The character that separates groups. -/
def hexSeparator (v : Value) : Action Char := do
  let size ← Action.compute (·.sizeOf v)
  if size != 1 then .raise (.plain .value "sep must be length 1.")
  else
    let c ← match v, v.text? with
      | _, some text => pure (text.toList.headD ' ')
      | .bytes _ [b], none => pure (Ascii.toChar b)
      | _, none => Arguments.refused "sep must be str or bytes."
    if c.toNat < 128 then return c else .raise (.plain .value "sep must be ASCII.")

/-- The hexadecimal text of bytes. Groups are counted from the end, or from the start when their
size is negative. -/
def hexText (data : List UInt8) (args : List Value) : Action Value := do
  let plain := data.flatMap hexOf
  match args with
  | [] => return .str (String.ofList plain)
  | sep :: size =>
    let size ← match size with
      | [] => pure 1
      | v :: _ => Arguments.ofBits 32 "int" v
    let sep ← hexSeparator sep
    let width := size.natAbs
    if width == 0 then return .str (String.ofList plain)
    else
      let odd := data.length % width
      let first := if 0 < size && odd != 0 then odd else width
      return .str (String.ofList (joined [sep] (hexGroups width first data)))

/-- The bytes of a hexadecimal text from a position on; blanks may stand between them. If there are
none the position of the first wrong character is given. -/
def ofHex : (position : Nat) → List Char → Except Nat (List UInt8)
  | _, [] => .ok []
  | position, a :: rest =>
    if Numeral.isPlainBlank a then ofHex (position + 1) rest
    else
      match Numeral.plainDigit? a, rest with
      | none, _ => .error position
      | some _, [] => .error (position + 1)
      | some high, b :: rest =>
        match Numeral.plainDigit? b with
        | none => .error (position + 1)
        | some low => do
          return UInt8.ofNat (high * 16 + low) :: (← ofHex (position + 2) rest)

/-- The bytes that a hexadecimal text denotes. -/
def fromHex (v : Value) : Action Value := do
  match v.text? with
  | none => Arguments.refused ("fromhex() argument must be str, not " ++ v.typeName)
  | some text =>
    match ofHex 0 text.toList with
    | .ok data => Action.copiedBytes data
    | .error position =>
      .raise (.plain .value
        ("non-hexadecimal number found in fromhex() arg at position " ++ toString position))

/-! ## Text -/

/-- The error for bytes that are no text. -/
def undecodable (encoding : String) (receiver : Value) (part : BadPart) : Fault :=
  .raised .decoding [.str encoding, receiver, .int part.start,
    .int (part.start + part.data.length), .str part.reason]

/-- The characters of pieces, each bad one mended. -/
def mended (encoding : String) (receiver : Value) (remedy : String) :
    List Text.Piece → Action (List Char)
  | [] => return []
  | .ok c :: rest => do return c :: (← mended encoding receiver remedy rest)
  | .error part :: rest => do
    match Remedy.ofName? remedy with
    | none => .raise (.plain (.other "LookupError")
        ("unknown error handler name '" ++ remedy ++ "'"))
    | some .unsuited =>
      Arguments.refused "don't know how to handle UnicodeDecodeError in error callback"
    | some r =>
      match r.mend? part with
      | none => .raise (undecodable encoding receiver part)
      | some cs => return cs ++ (← mended encoding receiver remedy rest)

/-- The text of bytes. -/
def decoded (receiver : Value) (data : List UInt8) (args : List Value) : Action Value := do
  let encoding ← match args[0]? with
    | none => pure "utf-8"
    | some v => textNamed "decode" "encoding" v
  let remedy ← match args[1]? with
    | none => pure "strict"
    | some v => textNamed "decode" "errors" v
  if data.isEmpty then return .str ""
  else
    match Encoding.ofName? encoding with
    | none => .raise (.plain (.other "LookupError") ("unknown encoding: " ++ encoding))
    | some e =>
      let (name, pieces) := e.pieces data
      return .str (String.ofList (← mended name receiver remedy pieces))

/-! ## Tables -/

/-- The table that takes some bytes to others at the same places and keeps the rest. A later place
wins. -/
def tableOf (source image : List UInt8) : List UInt8 :=
  (List.range 256).map fun i =>
    ((source.zip image).reverse.lookup (UInt8.ofNat i)).getD (UInt8.ofNat i)

/-- A table to replace bytes by. -/
def makeTable (source image : Value) : Action Value := do
  let source ← bytes source
  let image ← bytes image
  if source.length != image.length then
    .raise (.plain .value "maketrans arguments must have same length")
  else Action.newBytes (tableOf source image)

/-- Drops some bytes and replaces the others by a table. -/
def translated (receiver : Value) (data : List UInt8) (table : Value) (dropped : Option Value) :
    Action Value := do
  let table ← match table with
    | .nil => pure (tableOf [] [])
    | v => bytes v
  if table.length != 256 then
    .raise (.plain .value "translation table must be 256 characters long")
  else
    let dropped ← match dropped with
      | none => pure []
      | some v => bytes v
    let kept := data.filter fun b => !dropped.contains b
    keptOrNew receiver data (kept.map fun b => table.getD b.toNat b)

/-! ## All methods -/

/-- The value of a method called on bytes. -/
def call (m : BytesMethod) (receiver : Value) (data : List UInt8) (args : List Value) :
    Action Value := do
  m.arity.check args.length
  let first := args.getD 0 .nil
  match m with
  | .capitalize => Action.newBytes (Ascii.capitalized data)
  | .lower => Action.newBytes (data.map Ascii.toLower)
  | .upper => Action.newBytes (data.map Ascii.toUpper)
  | .swapcase => Action.newBytes (data.map Ascii.swapped)
  | .title => Action.newBytes (Ascii.titled false data)
  | .isalnum => return everyByte (fun b => Ascii.isLetter b || Ascii.isDigit b) data
  | .isalpha => return everyByte Ascii.isLetter data
  | .isascii => return .bool (data.all (· < 128))
  | .isdigit => return everyByte Ascii.isDigit data
  | .isspace => return everyByte Ascii.isBlank data
  | .islower => return .bool (Ascii.allInCase Ascii.isLower Ascii.isUpper data)
  | .isupper => return .bool (Ascii.allInCase Ascii.isUpper Ascii.isLower data)
  | .istitle => return .bool (Ascii.isTitled data)
  | .center =>
    let (width, fill) ← padding "center" args
    keptOrNew receiver data (centred width fill data)
  | .ljust =>
    let (width, fill) ← padding "ljust" args
    keptOrNew receiver data (paddedRight width fill data)
  | .rjust =>
    let (width, fill) ← padding "rjust" args
    keptOrNew receiver data (paddedLeft width fill data)
  | .zfill =>
    let (width, _) ← padding "zfill" [first]
    keptOrNew receiver data (zeroFilled 48 (fun b => b == 43 || b == 45) width data)
  | .expandtabs =>
    let width ← match args with
      | [] => pure 8
      | v :: _ => Arguments.ofBits 32 "int" v
    Action.newBytes (Ascii.tabsExpanded width 0 data)
  | .count =>
    let (part, lo, hi) ← target data args
    if hi < lo + part.length then return .int 0
    else return .int (occurrences part ((data.take hi).drop lo))
  | .find => return placeOrNone (← locate find? data args)
  | .rfind => return placeOrNone (← locate findLast? data args)
  | .index => do requiredPlace (← locate find? data args)
  | .rindex => do requiredPlace (← locate findLast? data args)
  | .startswith => tests "startswith" List.isPrefixOf data args
  | .endswith => tests "endswith" (fun p bytes => p.reverse.isPrefixOf bytes.reverse) data args
  | .join => joinAll data first
  | .strip =>
    let p ← trimSet args
    keptOr receiver data (dropEndWhile p (data.dropWhile p))
  | .lstrip => do keptOr receiver data (data.dropWhile (← trimSet args))
  | .rstrip => do keptOr receiver data (dropEndWhile (← trimSet args) data)
  | .partition => partitioned cut? false receiver data first
  | .rpartition => partitioned cutLast? true receiver data first
  | .removePrefix =>
    let part ← bytes first
    keptOr receiver data (if part.isPrefixOf data then data.drop part.length else data)
  | .removeSuffix =>
    let part ← bytes first
    keptOr receiver data
      (if part.reverse.isPrefixOf data.reverse then data.take (data.length - part.length)
        else data)
  | .replace =>
    let old ← bytes first
    let new ← bytes (args.getD 1 .nil)
    let limit ← match args[2]? with
      | none => pure none
      | some n => Arguments.limit n
    if limit == some 0 || old.isEmpty && new.isEmpty || (find? old data).isNone then return receiver
    else Action.newBytes (Text.replace old new limit data)
  | .split => splitBy (words Ascii.isBlank) splitOn receiver data args
  | .rsplit => splitBy (wordsFromEnd Ascii.isBlank) splitOnFromEnd receiver data args
  | .splitlines =>
    let keep ← match args with
      | [] => pure false
      | v :: _ => Arguments.switch v
    listOf receiver data (lines lineEnds keep data)
  | .hex => hexText data args
  | .fromhex => fromHex first
  | .decode => decoded receiver data args
  | .maketrans => makeTable first (args.getD 1 .nil)
  | .translate => translated receiver data first args[1]?

end Lisplet.BytesMethod
