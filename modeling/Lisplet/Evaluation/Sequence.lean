import Lisplet.Evaluation.Cursor
import Lisplet.Method.List

/-!
# Sequence methods

The methods that scripts find on lists and tuples. Those with a callback walk through the sequence
while the callback may change it. The others look at the sequence once. As functions they take the
sequence as their first argument.
-/

namespace Lisplet.SequenceMethod

/-- How a method is called as a function. -/
def signature : SequenceMethod → Signature
  | .map => ⟨"seq_map", ["seq", "fn"], [], false⟩
  | .filter => ⟨"seq_filter", ["seq", "fn"], [], false⟩
  | .reduce => ⟨"seq_reduce", ["seq", "fn"], ["initial"], false⟩
  | .forEach => ⟨"seq_for_each", ["seq", "fn"], [], false⟩
  | .find => ⟨"seq_find", ["seq", "fn"], [], false⟩
  | .some => ⟨"seq_some", ["seq", "fn"], [], false⟩
  | .every => ⟨"seq_every", ["seq", "fn"], [], false⟩
  | .slice => ⟨"seq_slice", ["seq"], ["start", "end"], false⟩
  | .concat => ⟨"seq_concat", ["seq"], [], true⟩
  | .join => ⟨"seq_join", ["seq"], ["separator"], false⟩
  | .includes => ⟨"seq_includes", ["seq", "value"], [], false⟩
  | .indexOf => ⟨"seq_index_of", ["seq", "value"], [], false⟩
  | .push => ⟨"seq_push", ["seq"], [], true⟩

/-! ## Methods with a callback -/

/-- What a callback gives for each element. -/
def mapElements (m : Machine) (v fn : Value) : Action Value := do
  let results ← m.foldElements v #[] fun item acc => do
    return .yield (acc.push (← m.call fn [item]))
  Action.newList results

/-- The elements for which a callback gives something true. -/
def filterElements (m : Machine) (v fn : Value) : Action Value := do
  let kept ← m.foldElements v #[] fun item acc => do
    return .yield (if ← Action.truthy (← m.call fn [item]) then acc.push item else acc)
  Action.newList kept

/-- Calls back with what has been collected and the next element, from the left. -/
def foldCalls (m : Machine) (fn : Value) : Value → List Value → Action Value
  | acc, [] => return acc
  | acc, v :: rest => do foldCalls m fn (← m.call fn [acc, v]) rest

/-- Folds the elements from the left. Without an initial value the first element is it. -/
def reduceElements (m : Machine) (v fn initial : Value) : Action Value := do
  let items ← Action.elements v
  match initial, items with
  | .undefined, [] => .raise .emptyReduce
  | .undefined, first :: rest => foldCalls m fn first rest
  | initial, items => foldCalls m fn initial items

/-- Calls back with each element. -/
def visitElements (m : Machine) (v fn : Value) : Action Value := do
  m.foldElements v () fun item _ => do
    let _ ← m.call fn [item]
    return .yield ()
  return .undefined

/-- The first element for which the truth of what a callback gives is `truth`, if there is one. -/
def firstElement (m : Machine) (v fn : Value) (truth : Bool) : Action (Option Value) :=
  m.foldElements v none fun item acc => do
    if (← Action.truthy (← m.call fn [item])) == truth then return .done (Option.some item)
    else return .yield acc

/-! ## Methods without one -/

/-- A part of a sequence as a list; bounds count from the end when negative. -/
def sliceElements (v start stop : Value) : Action Value := do
  let items ← match v with
    | .list _ | .tuple _ _ | .str _ | .kind _ | .bytes _ _ => Action.elements v
    | .dict _ => .raise (.unhashable "slice")
    | v => Action.noPositions v
  let start ← Arguments.bound start
  let stop ← if stop.isNullish then pure none else Arguments.bound stop
  Action.newList (sliceOf items start stop).toArray

/-- What an argument adds to a sequence: its elements when it is a list or tuple, else itself. -/
def addition : Value → Action (List Value)
  | .list r => do return (← Action.gets (·.list r)).toList
  | .tuple _ items => return items
  | v => return [v]

/-- All additions one after the other. -/
def additions : List Value → Action (List Value)
  | [] => return []
  | v :: rest => do
    let here ← addition v
    return here ++ (← additions rest)

/-- The texts of values; void and nil are empty. -/
def textsOf : List Value → Action (List String)
  | [] => return []
  | v :: rest => do
    let text ← if v.isNullish then pure "" else Action.compute (·.plain v)
    return text :: (← textsOf rest)

/-- The texts of the elements with a separator between them. What is no text is asked to join
them. -/
def joinElements (m : Machine) (v separator : Value) : Action Value := do
  match separator, separator.text? with
  | _, Option.some between => do
    let texts ← textsOf (← Action.elements v)
    return .str (between.intercalate texts)
  | .bytes _ _, none => do
    let texts ← textsOf (← Action.elements v)
    if texts.isEmpty then Action.newBytes []
    else Arguments.refused "sequence item 0: expected a bytes-like object, str found"
  | separator, none => do
    let join ← Property.member separator "join"
    let texts ← textsOf (← Action.elements v)
    m.call join [.iterator (← Action.make (·.addIterator .generated (texts.map .str)))]

/-- The position of a value in a sequence. What is no sequence is asked for it. -/
def positionOf (m : Machine) (v value : Value) : Action Value := do
  let ofPlace := fun place : Option Nat => Value.int ((place.map Int.ofNat).getD (-1))
  match v, v.text? with
  | .list _, _ | .tuple _ _, _ => return ofPlace (← indexIn value (← Action.elements v))
  | .bytes _ data, _ =>
    match value, value.index? with
    | .bytes _ part, _ => return ofPlace (Text.find? part data)
    | _, Option.some i => return ofPlace ((byte? i).bind fun b => Text.find? [b] data)
    | _, none =>
      Arguments.refused
        ("argument should be integer or bytes-like object, not '" ++ value.typeName ++ "'")
  | _, Option.some text => return ofPlace (Text.find? (← Arguments.text value) text.toList)
  | v, none => do m.call (← Property.member v "index") [value]

/-- The position of a value in a sequence, or minus one. -/
def indexOfElement (m : Machine) (v value : Value) : Action Value :=
  Action.catching ErrorKind.isValue (.int (-1)) (positionOf m v value)

/-- Adds values at the end of a list and gives its new length. What is no list is asked to add
them. -/
def pushElements (m : Machine) (v : Value) (values : List Value) : Action Value := do
  match v with
  | .list r =>
    let items := (← Action.gets (·.list r)) ++ values.toArray
    Action.update (·.setList r items)
    return .int items.size
  | v => do
    let extend ← Property.member v "extend"
    let _ ← m.call extend [← Action.newTuple values]
    return .int (← Action.compute (·.sizeOf v))

/-- Calls a method as a function of the sequence and the other arguments, which are given by
position and by name. -/
def call (m : Machine) (method : SequenceMethod) (args : List Value)
    (named : List (String × Value)) : Action Value := do
  let given ← Action.ofExcept (method.signature.bind args named)
  match method, given.params with
  | .map, [Option.some v, Option.some fn] => mapElements m v fn
  | .filter, [Option.some v, Option.some fn] => filterElements m v fn
  | .reduce, [Option.some v, Option.some fn, initial] =>
    reduceElements m v fn (initial.getD .undefined)
  | .forEach, [Option.some v, Option.some fn] => visitElements m v fn
  | .find, [Option.some v, Option.some fn] => do
    return (← firstElement m v fn true).getD .undefined
  | .some, [Option.some v, Option.some fn] => do
    return .bool (← firstElement m v fn true).isSome
  | .every, [Option.some v, Option.some fn] => do
    return .bool (← firstElement m v fn false).isNone
  | .slice, [Option.some v, start, stop] =>
    sliceElements v (start.getD (.int 0)) (stop.getD .undefined)
  | .concat, [Option.some v] => do
    let items ← Action.elements v
    let more ← additions given.others
    Action.newList (items ++ more).toArray
  | .join, [Option.some v, separator] => joinElements m v (separator.getD (.str ","))
  | .includes, [Option.some v, Option.some value] => do
    return .bool (← Action.contains v value)
  | .indexOf, [Option.some v, Option.some value] => indexOfElement m v value
  | .push, [Option.some v] => pushElements m v given.others
  | _, _ => Arguments.wrongCount

end Lisplet.SequenceMethod
