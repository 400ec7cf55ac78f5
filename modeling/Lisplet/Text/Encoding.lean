import Lisplet.Text.Ascii
import Lisplet.Text.Quoted
import Lisplet.Text.Search

/-!
# Encodings

Bytes as text in an encoding. Bytes that are no text in an encoding come in parts: each part is as
long as the bytes could still have been the beginning of a character. Encodings whose units are of
several bytes come in both orders of bytes; if none is named, a mark at the start decides, and
without a mark the lowest byte comes first.
-/

namespace Lisplet.Text

/-- Which byte of a unit comes first. -/
inductive ByteOrder where
  | lowestFirst | highestFirst
  deriving DecidableEq, Repr

/-- The encodings. -/
inductive Encoding where
  | utf8
  /-- UTF-8 with a mark at the start, which is dropped. -/
  | utf8Marked
  | utf16 (order : Option ByteOrder)
  | utf32 (order : Option ByteOrder)
  | ascii
  | latin1
  deriving DecidableEq, Repr

/-- A part of bytes that is no text: where it stands, how long it is, and why it is none. -/
structure BadPart where
  start : Nat
  data : List UInt8
  reason : String
  deriving DecidableEq, Repr

/-- A piece of decoded bytes. -/
abbrev Piece := Except BadPart Char

namespace Encoding

/-- The runs of letters, digits and points of a name in lower case, with low lines between them. -/
def plainName (name : String) : String :=
  let isPart := fun c : Char => c.isAlphanum || c == '.'
  let parts := words (fun c => !isPart c) none (name.toList.map Char.toLower)
  String.ofList (joined ['_'] parts)

/-- The encodings with their names. -/
def table : List (Encoding × List String) :=
  [(.utf8, ["utf_8", "utf8", "u8", "utf", "utf8_ucs2", "utf8_ucs4", "cp65001"]),
   (.utf8Marked, ["utf_8_sig"]),
   (.utf16 none, ["utf_16", "utf16", "u16"]),
   (.utf16 (some .lowestFirst), ["utf_16_le", "utf_16le", "unicodelittleunmarked"]),
   (.utf16 (some .highestFirst), ["utf_16_be", "utf_16be", "unicodebigunmarked"]),
   (.utf32 none, ["utf_32", "utf32", "u32"]),
   (.utf32 (some .lowestFirst), ["utf_32_le", "utf_32le"]),
   (.utf32 (some .highestFirst), ["utf_32_be", "utf_32be"]),
   (.ascii, ["ascii", "us_ascii", "us", "646", "ansi_x3.4_1968", "ansi_x3_4_1968",
     "ansi_x3.4_1986", "cp367", "csascii", "ibm367", "iso646_us", "iso_646.irv_1991", "iso_ir_6"]),
   (.latin1, ["latin_1", "latin1", "latin", "l1", "8859", "cp819", "csisolatin1", "ibm819",
     "iso8859", "iso8859_1", "iso_8859_1", "iso_8859_1_1987", "iso_ir_100"])]

/-- The encoding that has a name. -/
def ofName? (name : String) : Option Encoding :=
  (table.find? fun entry => entry.2.contains (plainName name)).map (·.1)

/-! ## UTF-8 -/

/-- The ranges that the bytes after a first byte must lie in for a character of UTF-8. -/
def followers (b : UInt8) : Option (List (UInt8 × UInt8)) :=
  let any : UInt8 × UInt8 := (0x80, 0xBF)
  if b < 0x80 then some []
  else if 0xC2 ≤ b && b ≤ 0xDF then some [any]
  else if b == 0xE0 then some [(0xA0, 0xBF), any]
  else if b == 0xED then some [(0x80, 0x9F), any]
  else if 0xE1 ≤ b && b ≤ 0xEF then some [any, any]
  else if b == 0xF0 then some [(0x90, 0xBF), any, any]
  else if 0xF1 ≤ b && b ≤ 0xF3 then some [any, any, any]
  else if b == 0xF4 then some [(0x80, 0x8F), any, any]
  else none

/-- The bytes at the start that lie in ranges, one after the other. -/
def within : List (UInt8 × UInt8) → List UInt8 → List UInt8
  | (lo, hi) :: ranges, b :: rest => if lo ≤ b && b ≤ hi then b :: within ranges rest else []
  | _, _ => []

/-- The code point of a first byte and the bytes after it. -/
def codePoint (b : UInt8) (after : List UInt8) : Nat :=
  let lead := match after.length with
    | 0 => b.toNat
    | n => b.toNat % Nat.pow 2 (6 - n)
  after.foldl (fun n c => n * 64 + c.toNat % 64) lead

/-- The first piece of bytes that stand at a position, and how many bytes follow the first one in
it. -/
def firstPiece (position : Nat) (b : UInt8) (rest : List UInt8) : Piece × Nat :=
  match followers b with
  | none => (.error ⟨position, [b], "invalid start byte"⟩, 0)
  | some ranges =>
    let after := within ranges rest
    if after.length == ranges.length then (.ok (Char.ofNat (codePoint b after)), after.length)
    else
      let reason :=
        if after.length == rest.length then "unexpected end of data"
        else "invalid continuation byte"
      (.error ⟨position, b :: after, reason⟩, after.length)

/-- The pieces of bytes in UTF-8, after `skip` bytes that belong to a piece before them. -/
def utf8Pieces : (position skip : Nat) → List UInt8 → List Piece
  | _, _, [] => []
  | position, skip + 1, _ :: rest => utf8Pieces (position + 1) skip rest
  | position, 0, b :: rest =>
    let (piece, after) := firstPiece position b rest
    piece :: utf8Pieces (position + 1) after rest

/-! ## Units of several bytes -/

/-- The number that bytes are in an order. -/
def unitOf (order : ByteOrder) (data : List UInt8) : Nat :=
  let highestFirst := match order with
    | .lowestFirst => data.reverse
    | .highestFirst => data
  highestFirst.foldl (fun n b => n * 256 + b.toNat) 0

/-- The unit is the first half of a pair that stands for one character. -/
def isHighHalf (unit : Nat) : Bool := 0xD800 ≤ unit && unit < 0xDC00

/-- The unit is the second half of a pair that stands for one character. -/
def isLowHalf (unit : Nat) : Bool := 0xDC00 ≤ unit && unit < 0xE000

/-- The pieces of bytes in UTF-16. -/
def utf16Pieces (order : ByteOrder) : (position : Nat) → List UInt8 → List Piece
  | _, [] => []
  | position, [a] => [.error ⟨position, [a], "truncated data"⟩]
  | position, a :: b :: rest =>
    let unit := unitOf order [a, b]
    if isLowHalf unit then
      .error ⟨position, [a, b], "illegal encoding"⟩ :: utf16Pieces order (position + 2) rest
    else if isHighHalf unit then
      match rest with
      | c :: d :: others =>
        let next := unitOf order [c, d]
        if isLowHalf next then
          let code := 0x10000 + (unit - 0xD800) * 1024 + (next - 0xDC00)
          .ok (Char.ofNat code) :: utf16Pieces order (position + 4) others
        else
          .error ⟨position, [a, b], "illegal UTF-16 surrogate"⟩
            :: utf16Pieces order (position + 2) (c :: d :: others)
      | rest => [.error ⟨position, a :: b :: rest, "unexpected end of data"⟩]
    else .ok (Char.ofNat unit) :: utf16Pieces order (position + 2) rest

/-- The character that a unit of UTF-32 is, or why it is none. -/
def utf32Char (unit : Nat) : Except String Char :=
  if isHighHalf unit || isLowHalf unit then
    .error "code point in surrogate code point range(0xd800, 0xe000)"
  else if unit < 0x110000 then .ok (Char.ofNat unit)
  else .error "code point not in range(0x110000)"

/-- The pieces of bytes in UTF-32. -/
def utf32Pieces (order : ByteOrder) : (position : Nat) → List UInt8 → List Piece
  | _, [] => []
  | position, a :: b :: c :: d :: rest =>
    let piece : Piece := match utf32Char (unitOf order [a, b, c, d]) with
      | .ok char => .ok char
      | .error reason => .error ⟨position, [a, b, c, d], reason⟩
    piece :: utf32Pieces order (position + 4) rest
  | position, rest => [.error ⟨position, rest, "truncated data"⟩]

/-! ## Units of one byte -/

/-- The pieces of bytes in ASCII. -/
def asciiPieces : (position : Nat) → List UInt8 → List Piece
  | _, [] => []
  | position, b :: rest =>
    let piece : Piece :=
      if b < 128 then .ok (Ascii.toChar b)
      else .error ⟨position, [b], "ordinal not in range(128)"⟩
    piece :: asciiPieces (position + 1) rest

/-! ## All encodings -/

/-- The order of bytes for data without a named order, and the size of the mark at its start. -/
def markedOrder (size : Nat) (data : List UInt8) : ByteOrder × Nat :=
  let start := data.take size
  if start.length == size && unitOf .lowestFirst start == 0xFEFF then (.lowestFirst, size)
  else if start.length == size && unitOf .highestFirst start == 0xFEFF then (.highestFirst, size)
  else (.lowestFirst, 0)

/-- The name of an order of bytes at the end of the name of an encoding. -/
def orderName : ByteOrder → String
  | .lowestFirst => "-le"
  | .highestFirst => "-be"

/-- The pieces of bytes, and the name that errors give to the encoding. -/
def pieces : Encoding → List UInt8 → String × List Piece
  | .utf8, data => ("utf-8", utf8Pieces 0 0 data)
  | .utf8Marked, data =>
    ("utf-8", utf8Pieces 0 0 (if data.take 3 == [0xEF, 0xBB, 0xBF] then data.drop 3 else data))
  | .utf16 order, data =>
    let (order, mark) := (order.map (·, 0)).getD (markedOrder 2 data)
    ("utf-16" ++ orderName order, utf16Pieces order mark (data.drop mark))
  | .utf32 order, data =>
    let (order, mark) := (order.map (·, 0)).getD (markedOrder 4 data)
    ("utf-32" ++ orderName order, utf32Pieces order mark (data.drop mark))
  | .ascii, data => ("ascii", asciiPieces 0 data)
  | .latin1, data => ("latin-1", data.map fun b => .ok (Ascii.toChar b))

end Encoding

/-- What is done about bytes that are no text. -/
inductive Remedy where
  | strict | ignore | replace | escape
  /-- Something that can only be done about characters. -/
  | unsuited
  deriving DecidableEq, Repr

namespace Remedy

/-- The remedy that has a name. -/
def ofName? : String → Option Remedy
  | "strict" | "surrogatepass" => some .strict
  | "ignore" => some .ignore
  | "replace" => some .replace
  | "backslashreplace" => some .escape
  | "xmlcharrefreplace" | "namereplace" => some .unsuited
  | _ => none

/-- What stands for bytes that are no text; strict and unsuited remedies have nothing for them. -/
def mend? : Remedy → BadPart → Option (List Char)
  | .strict, _ | .unsuited, _ => none
  | .ignore, _ => some []
  | .replace, _ => some [Char.ofNat 0xFFFD]
  | .escape, part => some (part.data.flatMap fun b => '\\' :: 'x' :: hexDigits 2 b.toNat)

end Remedy

end Lisplet.Text
