import Lisplet.Store.Equality

/-!
# Sorting a list in place

A stable sort by insertion: the list starts with an ascending run, or a strictly descending one that
is turned around, and each further element is put into its place by binary search. When a
comparison fails the list is left with the elements sorted so far in front.
-/

namespace Lisplet.Sorting

/-- Changes the store when an action fails. -/
def onFailure {α : Type} (change : Store → Store) (a : Action α) : Action α := fun s =>
  match a s with
  | .failed e s' => .failed e (change s')
  | outcome => outcome

/-- The first value is less than the second. -/
def less (a b : Value) : Action Bool := Comparison.less.holds a b

/-- How many elements follow `previous` such that each is less than the one before it, or each is
not. -/
def runLength (descending : Bool) (previous : Value) : List Value → Action Nat
  | [] => return 0
  | v :: rest => do
    if (← less v previous) == descending then return (← runLength descending v rest) + 1
    else return 0

/-- The run at the start of a list in ascending order, and the rest of the list. -/
def firstRun (items : List Value) : Action (List Value × List Value) := do
  match items with
  | a :: b :: rest =>
    let descending ← less b a
    let n := 2 + (← runLength descending b rest)
    let run := items.take n
    return (if descending then run.reverse else run, items.drop n)
  | items => return (items, [])

/-- The place of an element in a sorted list, between `lo` and `hi`: after all elements that are not
greater. -/
def place (pivot : Value) (sorted : Array Value) : (fuel lo hi : Nat) → Action Nat
  | 0, lo, _ => return lo
  | fuel + 1, lo, hi => do
    if hi ≤ lo then return lo
    else
      let mid := lo + (hi - lo) / 2
      if ← less pivot (sorted.getD mid .undefined) then place pivot sorted fuel lo mid
      else place pivot sorted fuel (mid + 1) hi

/-- Puts the elements of the second list into the first one. -/
def insertAll (r : ListRef) (sorted : Array Value) : List Value → Action (Array Value)
  | [] => return sorted
  | pivot :: rest => do
    let i ← onFailure (·.setList r (sorted ++ (pivot :: rest).toArray))
      (place pivot sorted sorted.size 0 sorted.size)
    let items := sorted.toList
    insertAll r (items.take i ++ pivot :: items.drop i).toArray rest

/-- Sorts a list in place. -/
def sort (r : ListRef) : Action Unit := do
  let items ← Action.gets (·.list r)
  let (run, rest) ← firstRun items.toList
  let sorted ← insertAll r run.toArray rest
  Action.update (·.setList r sorted)

end Lisplet.Sorting
