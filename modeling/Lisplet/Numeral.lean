import Lisplet.Double.Basic
import Lisplet.Text.Letter
import Lisplet.Text.Blank
import Lisplet.Text.Quoted

/-!
# Reading numbers

A numeral is a whole number in base ten or sixteen, or a decimal with a point or an exponent. The
digits of every numeral system count by their value, single underscores may stand between digits,
and blanks around the numeral are skipped. Whole numbers are exact; decimals are rounded to the
nearest double. A whole number in base ten may have at most `maxDigits` digits.
-/

namespace Lisplet

/-- A number read from text. -/
inductive Numeral where
  | whole (value : Int)
  | decimal (value : Double)
  deriving DecidableEq, Repr

namespace Numeral

/-- Why a text is no numeral. -/
inductive ReadError where
  | notWhole (base : Nat) (text : String)
  | notDecimal (text : String)
  | tooLong (digits : Nat)
  deriving DecidableEq, Repr

/-- The most digits a whole number in base ten may be read or written with. -/
def maxDigits : Nat := 4300

/-- The wording of a read error. -/
def ReadError.message : ReadError → String
  | .notWhole base text =>
    "invalid literal for int() with base " ++ toString base ++ ": " ++ Text.quoted text
  | .notDecimal text => "could not convert string to float: " ++ Text.quoted text
  | .tooLong digits =>
    "Exceeds the limit (" ++ toString maxDigits
      ++ " digits) for integer string conversion: value has " ++ toString digits
      ++ " digits; use sys.set_int_max_str_digits() to increase the limit"

/-- Digits of other numeral systems become ASCII digits and other blanks become spaces. -/
def plainChar (c : Char) : Char :=
  if c.toNat < 128 then c
  else match Text.digitValue? c with
    | some v => Char.ofNat (48 + v)
    | none => if Text.isBlank c then ' ' else c

/-- The blanks that are trimmed once the text is in plain characters. -/
def isPlainBlank (c : Char) : Bool := c == ' ' || (9 ≤ c.toNat && c.toNat ≤ 13)

/-- The text in plain characters without the blanks around it. -/
def plain (text : String) : List Char :=
  let cs := (text.toList.map plainChar).dropWhile isPlainBlank
  (cs.reverse.dropWhile isPlainBlank).reverse

/-- Splits off a sign; the first part tells whether it is a minus. -/
def splitSign : List Char → Bool × List Char
  | '-' :: cs => (true, cs)
  | '+' :: cs => (false, cs)
  | cs => (false, cs)

/-- The value of a plain digit in bases up to sixteen. -/
def plainDigit? (c : Char) : Option Nat :=
  let n := c.toNat
  if 48 ≤ n && n ≤ 57 then some (n - 48)
  else if 97 ≤ n && n ≤ 102 then some (n - 87)
  else if 65 ≤ n && n ≤ 70 then some (n - 55)
  else none

/-- A plain digit of the base. -/
def isPlainDigit (base : Nat) (c : Char) : Bool := (plainDigit? c).any (· < base)

/-- Removes underscores, each of which must stand between two digits. -/
def dropSeparators (base : Nat) : List Char → Option (List Char)
  | a :: '_' :: b :: rest =>
    if isPlainDigit base a && isPlainDigit base b then
      (dropSeparators base (b :: rest)).map (a :: ·)
    else none
  | '_' :: _ => none
  | c :: rest => (dropSeparators base rest).map (c :: ·)
  | [] => some []

/-- The number that digits denote. -/
def digitsValue (base : Nat) (cs : List Char) : Nat :=
  cs.foldl (fun n c => n * base + (plainDigit? c).getD 0) 0

/-- Plain digits without sign, with separators allowed, as a number with its digit count. -/
def digits? (base : Nat) (cs : List Char) : Option (Nat × Nat) :=
  match dropSeparators base cs with
  | some ds =>
    if !ds.isEmpty && ds.all (isPlainDigit base) then some (digitsValue base ds, ds.length)
    else none
  | none => none

/-- In base sixteen the digits may follow the mark `0x`, and one underscore may follow the mark. -/
def dropMark (base : Nat) : List Char → List Char
  | '0' :: x :: rest =>
    if base == 16 && (x == 'x' || x == 'X') then
      match rest with
      | '_' :: more => more
      | more => more
    else '0' :: x :: rest
  | cs => cs

/-- Reads a whole number in base ten or sixteen. -/
def readWhole (base : Nat) (text : String) : Except ReadError Int :=
  let (neg, cs) := splitSign (plain text)
  match digits? base (dropMark base cs) with
  | some (n, count) =>
    if base == 10 && maxDigits < count then .error (.tooLong count)
    else .ok (if neg then -(n : Int) else n)
  | none => .error (.notWhole base text)

/-- The double nearest to `digits · 10 ^ exponent`. An exponent far out of range is not computed. -/
def scaled (neg : Bool) (digits : Nat) (exponent : Int) : Double :=
  let magnitude := exponent + ((Nat.toDigits 10 digits).length : Int)
  if digits == 0 then .fin neg 0
  else if 400 < magnitude then .inf neg
  else if magnitude < -400 then .fin neg 0
  else if exponent < 0 then Double.ofRatio neg digits (Nat.pow 10 exponent.natAbs)
  else Double.ofRatio neg (digits * Nat.pow 10 exponent.toNat) 1

/-- The exponent part of a decimal: nothing, or a mark, a sign and digits. -/
def exponent? : List Char → Option Int
  | [] => some 0
  | c :: rest =>
    if c == 'e' || c == 'E' then
      let (neg, ds) := splitSign rest
      if !ds.isEmpty && ds.all (isPlainDigit 10) then
        let n : Int := digitsValue 10 ds
        some (if neg then -n else n)
      else none
    else none

/-- Reads a decimal without sign and separators. -/
def unsigned? (neg : Bool) (cs : List Char) : Option Double :=
  let isDigit := isPlainDigit 10
  let lead := cs.takeWhile isDigit
  let (fraction, rest) := match cs.dropWhile isDigit with
    | '.' :: more => (more.takeWhile isDigit, more.dropWhile isDigit)
    | more => ([], more)
  if lead.isEmpty && fraction.isEmpty then none
  else (exponent? rest).map fun e =>
    scaled neg (digitsValue 10 (lead ++ fraction)) (e - fraction.length)

/-- The names of the numbers that have no digits. -/
def named? (neg : Bool) (cs : List Char) : Option Double :=
  let name := cs.map Char.toLower
  if name == "inf".toList || name == "infinity".toList then some (.inf neg)
  else if name == "nan".toList then some (.nan 0)
  else none

/-- Reads a decimal. -/
def readDecimal (text : String) : Except ReadError Double :=
  let value := (dropSeparators 10 (plain text)).bind fun cs =>
    let (neg, cs) := splitSign cs
    (named? neg cs).or (unsigned? neg cs)
  match value with
  | some d => .ok d
  | none => .error (.notDecimal text)

/-- Reads a numeral as it stands in a source: the mark `0x` selects base sixteen, a point or an
exponent makes a decimal, and anything else is a whole number in base ten. -/
def read (text : String) : Except ReadError Numeral :=
  match text.toList with
  | '0' :: 'x' :: _ | '0' :: 'X' :: _ => (readWhole 16 text).map .whole
  | cs =>
    if cs.any fun c => c == '.' || c == 'e' || c == 'E' then (readDecimal text).map .decimal
    else (readWhole 10 text).map .whole

end Numeral

end Lisplet
