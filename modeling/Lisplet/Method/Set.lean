import Lisplet.Method.Signature
import Lisplet.Operator
import Lisplet.Property.Elements

/-!
# Methods of sets

Sets cannot change; their methods compare them and make new ones. What they are compared with may be
anything that has elements, as long as these can be keys.
-/

namespace Lisplet.SetMethod

/-- How many arguments a method takes, if that is fixed. -/
def arity? : SetMethod → Option Arity
  | .copy => some (.none "frozenset.copy")
  | .isDisjoint => some (.one "frozenset.isdisjoint")
  | .isSubset => some (.one "frozenset.issubset")
  | .isSuperset => some (.one "frozenset.issuperset")
  | .symmetricDifference => some (.one "frozenset.symmetric_difference")
  | .difference | .intersection | .union => none

/-- Some values with others added that are no key among them yet. -/
def inserted : List Value → List Value → Action (List Value)
  | items, [] => return items
  | items, v :: rest => do
    if ← Action.keyAmong v items then inserted items rest else inserted (items ++ [v]) rest

/-- The elements of a value, each as a key once. -/
def distinct (v : Value) : Action (List Value) := do inserted [] (← Action.elements v)

/-- The values that are keys among others. -/
def common (items : List Value) : List Value → Action (List Value)
  | [] => return []
  | v :: rest => do
    if ← Action.keyAmong v items then return v :: (← common items rest) else common items rest

/-- All values pass a test, up to the first one that does not. An iterator is used up as far as it
is looked at. -/
def allTaken (source : Value) (test : Value → Action Bool) : List Value → Action Bool
  | [] => return true
  | v :: rest => do
    match source with
    | .iterator r => Action.update (·.setIterator r rest)
    | _ => pure ()
    if ← test v then allTaken source test rest else return false

/-- The union with the elements of several values. -/
def unionWith : List Value → List Value → Action (List Value)
  | items, [] => return items
  | items, v :: rest => do unionWith (← inserted items (← Action.elements v)) rest

/-- What several values all have among their elements. -/
def intersectionWith : List Value → List Value → Action (List Value)
  | items, [] => return items
  | items, v :: rest => do
    let others ← distinct v
    intersectionWith (← common items others) rest

/-- What several values do not have among their elements. -/
def differenceWith : List Value → List Value → Action (List Value)
  | items, [] => return items
  | items, v :: rest => do
    let others ← distinct v
    differenceWith (Operator.without items others) rest

/-- The value of a method called on a set. -/
def call (m : SetMethod) (receiver : Value) (items args : List Value) : Action Value := do
  match m.arity? with
  | some arity => arity.check args.length
  | none => pure ()
  let other := args.getD 0 .nil
  match m with
  | .copy => return receiver
  | .isDisjoint =>
    let others ← Action.compute (·.elements other)
    return .bool (← allTaken other (fun v => do return !(← Action.keyAmong v items)) others)
  | .isSuperset =>
    let others ← Action.compute (·.elements other)
    return .bool (← allTaken other (fun v => Action.keyAmong v items) others)
  | .isSubset =>
    let others ← distinct other
    return .bool (Operator.without items others).isEmpty
  | .symmetricDifference =>
    let others ← distinct other
    Action.newSet (Operator.without items others ++ Operator.without others items)
  | .union => do Action.newSet (← unionWith items args)
  | .intersection => do Action.newSet (← intersectionWith items args)
  | .difference => do Action.newSet (← differenceWith items args)

end Lisplet.SetMethod
