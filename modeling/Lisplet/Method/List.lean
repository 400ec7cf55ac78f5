import Lisplet.Method.Signature
import Lisplet.Method.Sorting
import Lisplet.Property.Guard
import Lisplet.Property.Elements

/-!
# Methods of lists and tuples

The methods that search lists and tuples, and those that change a list in place. The latter give
nil.
-/

namespace Lisplet

/-- The first place from `i` on, and before `stop`, where an element equals a value. -/
def indexFrom (value : Value) (stop : Nat) : (i : Nat) → List Value → Action (Option Nat)
  | _, [] => return none
  | i, v :: rest => do
    if stop ≤ i then return none
    else if ← Action.within (·.equal v value) then return some i
    else indexFrom value stop (i + 1) rest

/-- The place of a value in a list. -/
def indexIn (value : Value) (items : List Value) : Action (Option Nat) :=
  indexFrom value items.length 0 items

/-- How many elements equal a value. -/
def countIn (value : Value) : List Value → Action Nat
  | [] => return 0
  | v :: rest => do
    let n ← if ← Action.within (·.equal v value) then pure 1 else pure 0
    return n + (← countIn value rest)

/-- The place of a value in a range of a list. -/
def indexWithin (items : List Value) (args : List Value) : Action (Value × Option Nat) := do
  let required := fun v : Value => do
    match v.index? with
    | some i => pure (some i)
    | none =>
      Arguments.refused "slice indices must be integers or have an __index__ method"
  (Arity.expected "index" 1 3).check args.length
  let (value, start, stop) ← match args with
    | [v] => pure (v, none, none)
    | [v, a] => pure (v, ← required a, none)
    | v :: a :: b :: _ => pure (v, ← required a, ← required b)
    | [] => Arguments.wrongCount
  let (lo, hi) := clampRange items.length start stop
  return (value, ← indexFrom value hi lo (items.drop lo))

namespace TupleMethod

/-- The value of a method called on a tuple. -/
def call (m : TupleMethod) (items : List Value) (args : List Value) : Action Value := do
  match m with
  | .count =>
    (Arity.one "tuple.count").check args.length
    match args with
    | v :: _ => return .int (← countIn v items)
    | [] => Arguments.wrongCount
  | .index =>
    match ← indexWithin items args with
    | (_, some i) => return .int i
    | (_, none) => .raise (.plain .value "tuple.index(x): x not in tuple")

end TupleMethod

namespace ListMethod

/-- How many arguments a method takes. -/
def arity : ListMethod → Arity
  | .append => .one "list.append"
  | .clear => .none "list.clear"
  | .copy => .none "list.copy"
  | .count => .one "list.count"
  | .extend => .one "list.extend"
  | .index => .expected "index" 1 3
  | .insert => .expected "insert" 2 2
  | .pop => .expected "pop" 0 1
  | .remove => .one "list.remove"
  | .reverse => .none "list.reverse"
  | .sort => .taking "sort" 0 2

/-- Replaces the elements of a list and gives nil. -/
def become (r : ListRef) (items : List Value) : Action Value := do
  Action.update (·.setList r items.toArray)
  return .nil

/-- The list without the element at a place. -/
def without (items : List Value) (i : Nat) : List Value := items.take i ++ items.drop (i + 1)

/-- Removes and gives the element at a position. -/
def popAt (r : ListRef) (items : List Value) (i : Int) : Action Value := do
  if items.isEmpty then .raise .popFromEmpty
  else
    match placeFromEnd? items.length i with
    | some n =>
      Action.update (·.setList r (without items n).toArray)
      return items.getD n .undefined
    | none => .raise (.plain .index "pop index out of range")

/-- The value of a method called on a list. -/
def call (m : ListMethod) (r : ListRef) (args : List Value) : Action Value := do
  m.arity.check args.length
  let items := (← Action.gets (·.list r)).toList
  match m, args with
  | .append, [v] => become r (items ++ [v])
  | .clear, [] => become r []
  | .copy, [] => Action.newList items.toArray
  | .count, [v] => return .int (← countIn v items)
  | .extend, [v] => do become r (items ++ (← Action.elements v))
  | .index, args =>
    match ← indexWithin items args with
    | (_, some i) => return .int i
    | (v, none) => .raise (.notInList (← Action.compute (·.shown v)))
  | .insert, [i, v] => do
    let (n, _) := clampRange items.length (some (← Arguments.size i)) none
    become r (items.take n ++ v :: items.drop n)
  | .pop, [] => popAt r items (-1)
  | .pop, [i] => do popAt r items (← Arguments.size i)
  | .remove, [v] =>
    match ← indexIn v items with
    | some n => become r (without items n)
    | none => .raise (.plain .value "list.remove(x): x not in list")
  | .reverse, [] => become r items.reverse
  | .sort, [] => do
    Sorting.sort r
    return .nil
  | .sort, _ => Arguments.refused "sort() takes no positional arguments"
  | _, _ => Arguments.wrongCount

end ListMethod

end Lisplet
