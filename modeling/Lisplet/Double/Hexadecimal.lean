import Lisplet.Numeral

/-!
# Hexadecimal text of doubles

A double is written in base sixteen as a leading digit, thirteen digits after the point and a binary
exponent. When such a text is read the point may stand anywhere, the exponent may be missing, and
the number is rounded to the nearest double.
-/

namespace Lisplet.Double

/-! ## Writing -/

/-- The hexadecimal text of a double. -/
def hexText : Double → String
  | .nan _ => "nan"
  | .inf neg => if neg then "-inf" else "inf"
  | .fin neg units =>
    let sign := if neg then "-" else ""
    if units == 0 then sign ++ "0x0.0p+0"
    else
      let top := units.log2
      let (lead, fraction, exponent) : String × Nat × Int :=
        if top < 52 then ("0", units, -1022)
        else ("1", units / Nat.pow 2 (top - 52) - Nat.pow 2 52, (top : Int) - 1074)
      sign ++ "0x" ++ lead ++ "." ++ String.ofList (Text.hexDigits 13 fraction) ++ "p"
        ++ (if exponent < 0 then "-" else "+") ++ toString exponent.natAbs

/-! ## Reading -/

/-- Why a text is no hexadecimal double. -/
inductive HexError where
  | malformed
  | tooLarge
  deriving DecidableEq, Repr

/-- What follows a word that a text begins with, in upper or lower case. -/
def afterWord? (word cs : List Char) : Option (List Char) :=
  if (cs.take word.length).map Char.toLower == word then some (cs.drop word.length) else none

/-- An infinity or a NaN at the start of a text, and what follows it. -/
def special? (cs : List Char) : Option (Double × List Char) :=
  let (neg, cs) := Numeral.splitSign cs
  match afterWord? "infinity".toList cs, afterWord? "inf".toList cs, afterWord? "nan".toList cs with
  | some rest, _, _ => some (.inf neg, rest)
  | none, some rest, _ => some (.inf neg, rest)
  | none, none, some rest => some (.nan 0, rest)
  | none, none, none => none

/-- A hexadecimal digit. -/
def isHexDigit (c : Char) : Bool := Numeral.isPlainDigit 16 c

/-- The digits at the start of a text before and after a point, and what follows them. -/
def coefficient (cs : List Char) : List Char × List Char × List Char :=
  let whole := cs.takeWhile isHexDigit
  match cs.dropWhile isHexDigit with
  | '.' :: rest => (whole, rest.takeWhile isHexDigit, rest.dropWhile isHexDigit)
  | rest => (whole, [], rest)

/-- The binary exponent at the start of a text, which is zero if there is none, and what follows
it. -/
def exponent? (cs : List Char) : Option (Int × List Char) :=
  match cs with
  | c :: rest =>
    if c == 'p' || c == 'P' then
      let (neg, rest) := Numeral.splitSign rest
      let digits := rest.takeWhile (Numeral.isPlainDigit 10)
      let n : Int := Numeral.digitsValue 10 digits
      if digits.isEmpty then none
      else some (if neg then -n else n, rest.dropWhile (Numeral.isPlainDigit 10))
    else some (0, cs)
  | [] => some (0, [])

/-- The double nearest to `n · 2 ^ e`. A number far out of range is not computed. -/
def scaledByTwo (neg : Bool) (n : Nat) (e : Int) : Except HexError Double :=
  let top := e + (n.log2 + 1 : Nat)
  if n == 0 || top < -1074 then .ok (.fin neg 0)
  else if 1024 < top then .error .tooLarge
  else
    let shift := e + 1074
    let nearest :=
      if 0 ≤ shift then ofUnitsRatio neg (n * Nat.pow 2 shift.toNat) 1
      else ofUnitsRatio neg n (Nat.pow 2 (-shift).toNat)
    match nearest with
    | .fin neg units => .ok (.fin neg units)
    | _ => .error .tooLarge

/-- A finite number at the start of a text, and what follows it. -/
def finite (cs : List Char) : Except HexError (Double × List Char) :=
  let (neg, cs) := Numeral.splitSign cs
  let cs := match cs with
    | '0' :: x :: rest => if x == 'x' || x == 'X' then rest else cs
    | cs => cs
  let (whole, fraction, rest) := coefficient cs
  if whole.isEmpty && fraction.isEmpty then .error .malformed
  else
    match exponent? rest with
    | none => .error .malformed
    | some (exponent, rest) => do
      let n := Numeral.digitsValue 16 (whole ++ fraction)
      let d ← scaledByTwo neg n (exponent - 4 * fraction.length)
      return (d, rest)

/-- The double that a hexadecimal text denotes. Blanks may stand around it. -/
def ofHexText (text : String) : Except HexError Double := do
  let cs := text.toList.dropWhile Numeral.isPlainBlank
  let (d, rest) ← match special? cs with
    | some found => pure found
    | none => finite cs
  if rest.all Numeral.isPlainBlank then return d else .error .malformed

end Lisplet.Double
