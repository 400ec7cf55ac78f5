import Lisplet.Store.Action

/-!
# Equality and order of values

`Store.equal` compares by content: numbers by their position on the number line, texts by their
characters, containers element by element and nodes part by part. The same object is always equal to
itself. What is part of a value is compared along its structure (`Value.equalBy`); lists and
dictionaries have to be looked up, and they can contain themselves, so that the number of those that
are followed below each other is limited. `Comparison.holds` orders numbers, texts, bytes, and lists
and tuples by their first difference, and sets by inclusion. It is given a number of steps.
-/

namespace Lisplet

namespace Value

/-- The position of a number on the number line; a boolean counts as zero or one. -/
def extent? : Value → Option Extent
  | .bool b => some (Extent.ofInt (if b then 1 else 0))
  | .int i => some (Extent.ofInt i)
  | .float d => d.extent?
  | _ => none

/-- A number or a boolean. -/
def isNumber : Value → Bool
  | .bool _ | .int _ | .float _ => true
  | _ => false

section EqualBy

variable (lists : ListRef → ListRef → Option Bool) (dicts : DictRef → DictRef → Option Bool)

mutual

/-- The values have the same content, if `lists` and `dicts` say whether the lists and dictionaries
in them have. -/
def equalBy (a b : Value) : Option Bool :=
  if a.same b then some true
  else if a.isNumber && b.isNumber then some (a.extent?.isSome && a.extent? == b.extent?)
  else match a, b with
    | .list x, .list y => lists x y
    | .tuple _ xs, .tuple _ ys => equalItemsBy xs ys
    | .dict x, .dict y => dicts x y
    | .node m, .node n => equalNodeBy m n
    | .method _ _ _, .method _ _ _ => some (a.receiverKey == b.receiverKey)
    | .bytes _ xs, .bytes _ ys => some (xs == ys)
    | .set _ _, .set _ _ => some (a.key.toOption == b.key.toOption)
    | _, _ =>
      match a.text?, b.text? with
      | some t, some u => some (t == u)
      | _, _ => some false
termination_by structural a

/-- The values in two lists have the same content, one after the other. -/
def equalItemsBy : List Value → List Value → Option Bool
  | [], [] => some true
  | a :: as, b :: bs => do if ← equalBy a b then equalItemsBy as bs else return false
  | _, _ => some false

/-- The nodes have the same kind, content and line. -/
def equalNodeBy : Node Value → Node Value → Option Bool
  | .leaf j t p, .leaf k u q => some (j == k && t == u && p.line == q.line)
  | .group j xs p, .group k ys q => do
    if j != k then return false
    else if ← equalNodesBy xs ys then return p.line == q.line
    else return false
  | .host v p _, .host w q _ => do if ← equalBy v w then equalBy p q else return false
  | _, _ => some false

/-- The nodes in two lists have the same kind, content and line, one after the other. -/
def equalNodesBy : List (Node Value) → List (Node Value) → Option Bool
  | [], [] => some true
  | m :: ms, n :: ns => do if ← equalNodeBy m n then equalNodesBy ms ns else return false
  | _, _ => some false

end

end EqualBy

end Value

namespace Store

/-- Every item of one list is related to the item at the same place of the other. -/
def allPairs {α : Type} (rel : α → α → Option Bool) : List α → List α → Option Bool
  | [], [] => some true
  | a :: as, b :: bs => do if ← rel a b then allPairs rel as bs else return false
  | _, _ => some false

/-- Every element of a list passes a test that takes steps. -/
def allPass {α : Type} (test : α → Option Bool) : List α → Option Bool
  | [] => some true
  | a :: as => do if ← test a then allPass test as else return false

section Following

variable (s : Store) (follow : Value → Value → Option Bool)

/-- The lists have the same elements, which `follow` compares. -/
def equalLists (x y : ListRef) : Option Bool :=
  allPairs follow (s.list x).toList (s.list y).toList

/-- The value of an entry is the same as that under its key in a dictionary. -/
def equalEntry (d : Dict) (e : Entry) : Option Bool :=
  match d.get? e.hash with
  | some v => follow e.value v
  | none => some false

/-- The dictionaries have the same keys with the same values, which `follow` compares. -/
def equalDicts (x y : DictRef) : Option Bool :=
  if (s.dict x).size != (s.dict y).size then some false
  else allPass (equalEntry follow (s.dict y)) (s.dict x).entries

/-- The values have the same content. What the lists and dictionaries in them hold is compared by
`follow`. -/
def equalFollowing (a b : Value) : Option Bool :=
  a.equalBy (s.equalLists follow) (s.equalDicts follow) b

end Following

/-- The values have the same content, with so many lists and dictionaries below each other. -/
def equalWithin (s : Store) : (fuel : Nat) → Value → Value → Option Bool
  | 0, _, _ => none
  | fuel + 1, a, b => s.equalFollowing (s.equalWithin fuel) a b

/-- The most levels of nesting that are compared in values that contain themselves. -/
def equalDepth : Nat := 100000

/-- How many lists and dictionaries have something in them. -/
def filled (s : Store) : Nat :=
  s.lists.countP (!·.isEmpty) + s.dicts.countP (·.size != 0)

/-- The values have the same content. On the way into a value that does not contain itself there is
no list and no dictionary twice. -/
def equal (s : Store) (a b : Value) : Option Bool :=
  s.equalFollowing (fun p q => s.equalWithin (max equalDepth s.filled) p q) a b

end Store

/-- The order comparisons. -/
inductive Comparison where
  | less | greater | atMost | atLeast
  deriving DecidableEq, Repr

namespace Comparison

/-- How the comparison is written. -/
def symbol : Comparison → String
  | .less => "<"
  | .greater => ">"
  | .atMost => "<="
  | .atLeast => ">="

/-- The comparison of things with a strict order. -/
def decideBy {α : Type} (lt : α → α → Bool) : Comparison → α → α → Bool
  | .less, a, b => lt a b
  | .greater, a, b => lt b a
  | .atMost, a, b => !lt b a
  | .atLeast, a, b => !lt a b

/-- The comparison of texts, character by character. -/
def ofTexts (c : Comparison) (a b : String) : Bool := c.decideBy (fun x y => decide (x < y)) a b

/-- The comparison of bytes, one by one. -/
def ofBytes (c : Comparison) (a b : List UInt8) : Bool := c.decideBy (fun x y => decide (x < y)) a b

/-- The comparison of two sets of keys by inclusion. -/
def ofSets (c : Comparison) (a b : List Key) : Bool :=
  match c with
  | .less => a.all b.contains && a.length < b.length
  | .greater => b.all a.contains && b.length < a.length
  | .atMost => a.all b.contains
  | .atLeast => b.all a.contains

/-- The comparison of two sequences whose items are compared by `rel`. The first pair of items that
are not equal decides, and else the lengths. -/
def ofSequences (c : Comparison) (rel : Value → Value → Action Bool) :
    List Value → List Value → Action Bool
  | a :: as, b :: bs => do
    if ← Action.within (·.equal a b) then ofSequences c rel as bs else rel a b
  | as, bs => return c.decideBy (fun x y : Nat => decide (x < y)) as.length bs.length

/-- The comparison of two values. -/
def holdsWithin (c : Comparison) : (fuel : Nat) → Value → Value → Action Bool
  | 0, _, _ => .exhausted
  | fuel + 1, a, b => do
    if a.isNumber && b.isNumber then
      match a.extent?, b.extent? with
      | some x, some y => return c.decideBy Extent.lt x y
      | _, _ => return false
    else
      match a, b with
      | .list x, .list y => do
        let xs ← Action.gets (·.list x)
        let ys ← Action.gets (·.list y)
        ofSequences c (holdsWithin c fuel) xs.toList ys.toList
      | .tuple _ xs, .tuple _ ys => ofSequences c (holdsWithin c fuel) xs ys
      | .bytes _ xs, .bytes _ ys => return c.ofBytes xs ys
      | .set _ xs, .set _ ys =>
        return c.ofSets ((Value.keys xs).toOption.getD []) ((Value.keys ys).toOption.getD [])
      | _, _ =>
        match a.text?, b.text? with
        | some t, some u => return c.ofTexts t u
        | _, _ => .raise (.unordered c.symbol a.typeName b.typeName)

/-- The comparison of two values. -/
def holds (c : Comparison) (a b : Value) : Action Bool := c.holdsWithin Store.equalDepth a b

end Comparison

end Lisplet
