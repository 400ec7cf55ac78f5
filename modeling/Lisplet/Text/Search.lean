import Lisplet.Text.Blank

/-!
# Searching and cutting texts

Texts as lists of characters: finding a part, splitting at a separator or at blanks, replacing,
trimming and padding. What makes a text of characters makes bytes of numbers, so the items of the
lists may be of any type; which of them are blank or end a line is a parameter. Counts that limit an
operation are `none` when there is no limit.
-/

namespace Lisplet.Text

variable {α : Type} [BEq α]

/-! ## Finding -/

/-- The first place from `i` on where a part occurs. -/
def findFrom (part : List α) : (i : Nat) → List α → Option Nat
  | i, [] => if part.isEmpty then some i else none
  | i, c :: cs => if part.isPrefixOf (c :: cs) then some i else findFrom part (i + 1) cs

/-- The first place where a part occurs. -/
def find? (part cs : List α) : Option Nat := findFrom part 0 cs

/-- The last place where a part occurs. -/
def findLast? (part cs : List α) : Option Nat :=
  (find? part.reverse cs.reverse).map (cs.length - part.length - ·)

/-- The text before and after the first occurrence of a separator. -/
def cut? (sep cs : List α) : Option (List α × List α) :=
  (find? sep cs).map fun i => (cs.take i, cs.drop (i + sep.length))

/-- The text before and after the last occurrence of a separator. -/
def cutLast? (sep cs : List α) : Option (List α × List α) :=
  (findLast? sep cs).map fun i => (cs.take i, cs.drop (i + sep.length))

/-! ## Splitting -/

/-- The next limit, or nothing when the limit is reached. -/
def spend : Option Nat → Option (Option Nat)
  | none => some none
  | some 0 => none
  | some (n + 1) => some (some n)

/-- The parts between occurrences of a separator, cutting at most `limit` times. -/
def splitWithin (sep : List α) : (fuel : Nat) → (limit : Option Nat) → List α →
    List (List α)
  | 0, _, cs => [cs]
  | fuel + 1, limit, cs =>
    match spend limit, cut? sep cs with
    | some limit, some (before, after) => before :: splitWithin sep fuel limit after
    | _, _ => [cs]

/-- The parts between occurrences of a separator, which must not be empty. -/
def splitOn (sep : List α) (limit : Option Nat) (cs : List α) : List (List α) :=
  splitWithin sep (cs.length + 1) limit cs

/-- The parts between occurrences of a separator, cutting from the end. -/
def splitOnFromEnd (sep : List α) (limit : Option Nat) (cs : List α) : List (List α) :=
  ((splitOn sep.reverse limit cs.reverse).map List.reverse).reverse

/-- The words between blanks. When the limit is reached the rest, without the blanks before it, is
the last word. -/
def wordsWithin (blank : α → Bool) :
    (fuel : Nat) → (limit : Option Nat) → List α → List (List α)
  | 0, _, _ => []
  | fuel + 1, limit, cs =>
    let cs := cs.dropWhile blank
    if cs.isEmpty then []
    else match spend limit with
      | none => [cs]
      | some limit =>
        cs.takeWhile (!blank ·) :: wordsWithin blank fuel limit (cs.dropWhile (!blank ·))

/-- The words between blanks. -/
def words (blank : α → Bool) (limit : Option Nat) (cs : List α) : List (List α) :=
  wordsWithin blank (cs.length + 1) limit cs

/-- The words between blanks, cutting from the end. -/
def wordsFromEnd (blank : α → Bool) (limit : Option Nat) (cs : List α) : List (List α) :=
  ((words blank limit cs.reverse).map List.reverse).reverse

/-- What ends a line: one of several items, or two that end a line together. -/
structure LineEnds (α : Type) where
  single : α → Bool
  pair : α × α

/-- The lines of a text. What ends a line is kept when `keep` says so. -/
def linesFrom (ends : LineEnds α) (keep : Bool) : (line : List α) → List α → List (List α)
  | [], [] => []
  | line, [] => [line.reverse]
  | line, [c] =>
    if ends.single c then [line.reverse ++ if keep then [c] else []] else [(c :: line).reverse]
  | line, c :: d :: cs =>
    if c == ends.pair.1 && d == ends.pair.2 then
      (line.reverse ++ if keep then [c, d] else []) :: linesFrom ends keep [] cs
    else if ends.single c then
      (line.reverse ++ if keep then [c] else []) :: linesFrom ends keep [] (d :: cs)
    else linesFrom ends keep (c :: line) (d :: cs)

/-- The lines of a text. -/
def lines (ends : LineEnds α) (keep : Bool) (cs : List α) : List (List α) :=
  linesFrom ends keep [] cs

/-! ## Replacing -/

/-- Texts one after the other with a separator between them. -/
def joined (sep : List α) (parts : List (List α)) : List α :=
  (parts.intersperse sep).flatten

/-- Puts a text before each of the first `limit` characters, and after the last one if the limit
allows it. -/
def interleave (new : List α) : (limit : Option Nat) → List α → List α
  | limit, [] => if (spend limit).isSome then new else []
  | limit, c :: cs =>
    match spend limit with
    | some limit => new ++ c :: interleave new limit cs
    | none => c :: cs

/-- Replaces at most `limit` occurrences of a part. -/
def replace (old new : List α) (limit : Option Nat) (cs : List α) : List α :=
  if old.isEmpty then interleave new limit cs else joined new (splitOn old limit cs)

/-- The number of occurrences of a part that do not overlap. -/
def occurrences (part cs : List α) : Nat :=
  if part.isEmpty then cs.length + 1 else (splitOn part none cs).length - 1

/-! ## Trimming and padding -/

/-- Drops characters at the end. -/
def dropEndWhile (p : α → Bool) (cs : List α) : List α :=
  (cs.reverse.dropWhile p).reverse

/-- Drops blanks at both ends. -/
def trimmed (cs : List Char) : List Char := dropEndWhile isBlank (cs.dropWhile isBlank)

/-- Fills up at the end. -/
def paddedRight (width : Nat) (fill : α) (cs : List α) : List α :=
  cs ++ List.replicate (width - cs.length) fill

/-- Fills up at the start. -/
def paddedLeft (width : Nat) (fill : α) (cs : List α) : List α :=
  List.replicate (width - cs.length) fill ++ cs

/-- Centres a text; an odd blank goes to the left when the width is odd. -/
def centred (width : Nat) (fill : α) (cs : List α) : List α :=
  let pad := width - cs.length
  let left := pad / 2 + (if pad % 2 == 1 && width % 2 == 1 then 1 else 0)
  List.replicate left fill ++ cs ++ List.replicate (pad - left) fill

/-- Fills with zeros between the sign and the digits. -/
def zeroFilled (zero : α) (isSign : α → Bool) (width : Nat) (cs : List α) : List α :=
  let zeros := List.replicate (width - cs.length) zero
  match cs with
  | c :: rest => if isSign c then c :: zeros ++ rest else zeros ++ cs
  | [] => zeros

end Lisplet.Text
