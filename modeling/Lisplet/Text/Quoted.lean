import Lisplet.Text.Printable

/-!
# Quoted text

How a text is shown inside another value: between quotes, with the quote, the backslash and every
character that is not printable escaped. Bytes are shown in the same way.
-/

namespace Lisplet.Text

/-- A hexadecimal digit in lower case. -/
def hexDigit (n : Nat) : Char := if n < 10 then Char.ofNat (48 + n) else Char.ofNat (87 + n)

/-- The last `width` hexadecimal digits of a number. -/
def hexDigits : (width : Nat) → Nat → List Char
  | 0, _ => []
  | width + 1, n => hexDigits width (n / 16) ++ [hexDigit (n % 16)]

/-- A text is quoted with apostrophes, unless it holds an apostrophe and no double quote. -/
def quoteFor (cs : List Char) : Char :=
  if cs.contains '\'' && !cs.contains '"' then '"' else '\''

/-- A character as it stands between quotes. The shortest of `\xhh`, `\uhhhh` and `\Uhhhhhhhh` that
has room for the code point is used. -/
def quotedChar (quote c : Char) : List Char :=
  if c == quote || c == '\\' then ['\\', c]
  else if c == '\t' then ['\\', 't']
  else if c == '\n' then ['\\', 'n']
  else if c == '\r' then ['\\', 'r']
  else if isPrintable c then [c]
  else if c.toNat < 0x100 then '\\' :: 'x' :: hexDigits 2 c.toNat
  else if c.toNat < 0x10000 then '\\' :: 'u' :: hexDigits 4 c.toNat
  else '\\' :: 'U' :: hexDigits 8 c.toNat

/-- The quoted form of a text. -/
def quoted (s : String) : String :=
  let cs := s.toList
  let quote := quoteFor cs
  String.ofList (quote :: cs.flatMap (quotedChar quote) ++ [quote])

/-- A byte as it stands between quotes. One that is no printable character of ASCII is escaped. -/
def quotedByte (quote : Char) (b : UInt8) : List Char :=
  let c := Char.ofNat b.toNat
  if c == quote || c == '\\' then ['\\', c]
  else if c == '\t' then ['\\', 't']
  else if c == '\n' then ['\\', 'n']
  else if c == '\r' then ['\\', 'r']
  else if 32 ≤ b && b < 127 then [c]
  else '\\' :: 'x' :: hexDigits 2 b.toNat

/-- The quoted form of bytes, which a letter tells from that of a text. -/
def quotedBytes (data : List UInt8) : String :=
  let quote := quoteFor (data.map fun b => Char.ofNat b.toNat)
  String.ofList ('b' :: quote :: data.flatMap (quotedByte quote) ++ [quote])

end Lisplet.Text
