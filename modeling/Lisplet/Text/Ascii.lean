/-!
# Bytes as characters

What the bytes of ASCII mean as characters: letters, digits, blanks and their case. Bytes above are
no characters.
-/

namespace Lisplet.Text.Ascii

/-- A capital letter. -/
def isUpper (b : UInt8) : Bool := 65 ≤ b && b ≤ 90

/-- A small letter. -/
def isLower (b : UInt8) : Bool := 97 ≤ b && b ≤ 122

/-- A letter. -/
def isLetter (b : UInt8) : Bool := isUpper b || isLower b

/-- A digit. -/
def isDigit (b : UInt8) : Bool := 48 ≤ b && b ≤ 57

/-- A blank. -/
def isBlank (b : UInt8) : Bool := b == 32 || (9 ≤ b && b ≤ 13)

/-- The small letter of a capital one. -/
def toLower (b : UInt8) : UInt8 := if isUpper b then b + 32 else b

/-- The capital letter of a small one. -/
def toUpper (b : UInt8) : UInt8 := if isLower b then b - 32 else b

/-- The letter in the other case. -/
def swapped (b : UInt8) : UInt8 := if isUpper b then toLower b else toUpper b

/-- Every word begins with a capital letter and goes on with small ones. -/
def titled : (inWord : Bool) → List UInt8 → List UInt8
  | _, [] => []
  | inWord, b :: rest => (if inWord then toLower b else toUpper b) :: titled (isLetter b) rest

/-- Capital letters only begin words, small ones only continue them, and there is a letter. -/
def isTitled (data : List UInt8) : Bool := data.any isLetter && titled false data == data

/-- The first letter is a capital one and the others are small. -/
def capitalized : List UInt8 → List UInt8
  | [] => []
  | b :: rest => toUpper b :: rest.map toLower

/-- There is a letter in one case and none in the other. -/
def allInCase (inCase other : UInt8 → Bool) (data : List UInt8) : Bool :=
  data.any inCase && !data.any other

/-- Replaces a tab by the spaces up to the next multiple of a width. A tab counts for nothing when
the width is not positive. -/
def tabsExpanded (width : Int) : (column : Nat) → List UInt8 → List UInt8
  | _, [] => []
  | column, b :: rest =>
    if b == 9 then
      let spaces := if 0 < width then width.toNat - column % width.toNat else 0
      List.replicate spaces 32 ++ tabsExpanded width (column + spaces) rest
    else if b == 10 || b == 13 then b :: tabsExpanded width 0 rest
    else b :: tabsExpanded width (column + 1) rest

/-- The byte of a character of ASCII. -/
def ofChar (c : Char) : UInt8 := UInt8.ofNat c.toNat

/-- The bytes of a text of ASCII. -/
def ofText (s : String) : List UInt8 := s.toList.map ofChar

/-- The character whose code point is a byte. -/
def toChar (b : UInt8) : Char := Char.ofNat b.toNat

end Lisplet.Text.Ascii
