import Lisplet.Text.CaseTable

/-!
# Letter case

Upper, lower, title and folded forms of texts, and the tests on the case of a text. A mapped
character may become several characters (`ß` is `SS` in upper case), and a capital sigma that ends a
word becomes the final form of the small sigma.
-/

namespace Lisplet.Text

/-- A lower case character. -/
def isLower (c : Char) : Bool := inRuns lowerRuns c

/-- An upper case character. -/
def isUpper (c : Char) : Bool := inRuns upperRuns c

/-- A title case character. -/
def isTitle (c : Char) : Bool := inSpans titleSpans c

/-- A character that has case. -/
def isCased (c : Char) : Bool := isLower c || isUpper c || isTitle c

/-- A character that casing looks past when it seeks the ends of a word. -/
def isCaseIgnorable (c : Char) : Bool := inSpans caseIgnorableSpans c

/-- The image of a character in a case mapping, if the mapping lists the character. -/
def caseImage? (runs : List (Nat × Nat × Nat × Int)) (many : List (Nat × List Nat)) (c : Char) :
    Option (List Char) :=
  match many.find? (·.1 == c.toNat) with
  | some (_, image) => some (image.map Char.ofNat)
  | none =>
    match runs.find? fun r => inRun (r.1, r.2.1, r.2.2.1) c.toNat with
    | some r => some [Char.ofNat (c.toNat + r.2.2.2).toNat]
    | none => none

/-- The upper case form of a character. -/
def upperOf (c : Char) : List Char := (caseImage? toUpperRuns toUpperMany c).getD [c]

/-- The lower case form of a character standing alone. -/
def lowerOf (c : Char) : List Char := (caseImage? toLowerRuns toLowerMany c).getD [c]

/-- The title case form of a character. -/
def titleOf (c : Char) : List Char := (caseImage? toTitleRuns toTitleMany c).getD (upperOf c)

/-- The folded form of a character, for comparison without regard to case. -/
def foldedOf (c : Char) : List Char := (caseImage? toFoldedRuns toFoldedMany c).getD (lowerOf c)

/-- A sigma between these neighbours ends a word: the nearest character before it that casing does
not look past has case, and the nearest one after it has none. The text before the sigma is given in
reverse. -/
def endsWord (before after : List Char) : Bool :=
  let nearest := fun cs : List Char => (cs.dropWhile isCaseIgnorable).head?
  (nearest before).any isCased && !(nearest after).any isCased

/-- The lower case form of a character in its context. -/
def lowerIn (before : List Char) (c : Char) (after : List Char) : List Char :=
  if c == 'Σ' then [if endsWord before after then 'ς' else 'σ'] else lowerOf c

/-- Maps every character of a text, showing the mapping the reversed text before the character and
the text after it. -/
def mapInContext (f : List Char → Char → List Char → List Char) :
    (before : List Char) → List Char → List Char
  | _, [] => []
  | before, c :: after => f before c after ++ mapInContext f (c :: before) after

/-- The text in lower case. -/
def toLower (cs : List Char) : List Char := mapInContext lowerIn [] cs

/-- The text in upper case. -/
def toUpper (cs : List Char) : List Char := cs.flatMap upperOf

/-- The text folded for comparison without regard to case. -/
def toFolded (cs : List Char) : List Char := cs.flatMap foldedOf

/-- The text with its first character in title case and the others in lower case. -/
def capitalized (cs : List Char) : List Char :=
  mapInContext (fun before c after => if before.isEmpty then titleOf c else lowerIn before c after)
    [] cs

/-- The text with every word in title case; a word starts after a character without case. -/
def toTitle (cs : List Char) : List Char :=
  mapInContext
    (fun before c after =>
      if before.head?.any isCased then lowerIn before c after else titleOf c) [] cs

/-- The text with upper and lower case exchanged. -/
def caseSwapped (cs : List Char) : List Char :=
  mapInContext
    (fun before c after =>
      if isUpper c then lowerIn before c after else if isLower c then upperOf c else [c]) [] cs

/-- The text has a lower case character and none of another case. -/
def allLower (cs : List Char) : Bool :=
  cs.any isLower && !cs.any fun c => isUpper c || isTitle c

/-- The text has an upper case character and none of another case. -/
def allUpper (cs : List Char) : Bool :=
  cs.any isUpper && !cs.any fun c => isLower c || isTitle c

end Lisplet.Text
