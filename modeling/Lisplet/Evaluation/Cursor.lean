import Lisplet.Evaluation.Machine

/-!
# Walking through elements

A cursor gives the elements of a value one after the other. A list is read anew at each step, so
that elements which are added or replaced on the way are seen; an iterator is used up; a dictionary
that grows on the way is an error. Because a list can grow at every step, a walk is given a number
of rounds. What cannot change is walked through as the list of its elements, which needs no such
number.
-/

namespace Lisplet

/-- A place in the elements of a value that can change. -/
inductive Cursor where
  /-- Before position `i` of a list. -/
  | list (ref : ListRef) (i : Nat)
  /-- Wherever an iterator is. -/
  | iterator (ref : IteratorRef)
  /-- Before position `i` of a dictionary that had a certain size. -/
  | dict (ref : DictRef) (i size : Nat)

namespace Cursor

/-- The next element and the place after it; at the end there is none. -/
def next? : Cursor → Action (Option (Value × Cursor))
  | .list r i => do return (← Action.gets (·.list r))[i]?.map (·, .list r (i + 1))
  | .iterator r => do
    match ← Action.gets (·.iterator r) with
    | [] => return none
    | v :: rest =>
      Action.update (·.setIterator r rest)
      return some (v, .iterator r)
  | .dict r i size => do
    let d ← Action.gets (·.dict r)
    if d.size != size then .raise (.plain .runtime "dictionary changed size during iteration")
    else return d.entries[i]?.map fun e => (e.key, .dict r (i + 1) size)

/-- Folds over the elements from a place on, until there are no more or a step is done. -/
def fold {σ : Type} (step : Value → σ → Action (ForInStep σ)) :
    (fuel : Nat) → Cursor → σ → Action σ
  | 0, _, _ => .exhausted
  | fuel + 1, c, acc => do
    match ← c.next? with
    | none => return acc
    | some (v, c) =>
      match ← step v acc with
      | .done acc => return acc
      | .yield acc => fold step fuel c acc

end Cursor

/-- Folds over values, until there are no more or a step is done. -/
def foldItems {σ : Type} (step : Value → σ → Action (ForInStep σ)) : List Value → σ → Action σ
  | [], acc => return acc
  | v :: rest, acc => do
    match ← step v acc with
    | .done acc => return acc
    | .yield acc => foldItems step rest acc

namespace Machine

/-- Folds over the elements of a value, until there are no more or a step is done. -/
def foldElements {σ : Type} (m : Machine) (v : Value) (init : σ)
    (step : Value → σ → Action (ForInStep σ)) : Action σ := do
  match v with
  | .list r => Cursor.fold step m.fuel (.list r 0) init
  | .iterator r => Cursor.fold step m.fuel (.iterator r) init
  | .dict r => do
    let size := (← Action.gets (·.dict r)).size
    Cursor.fold step m.fuel (.dict r 0 size) init
  | v => do foldItems step (← Action.compute (·.elements v)) init

/-- Evaluates the nodes of a body in order and gives the last value; without nodes that is void. -/
def block (m : Machine) (scope body : Value) : Action Value :=
  m.foldElements body .undefined fun operand _ => do return .yield (← m.eval scope operand)

end Machine

end Lisplet
