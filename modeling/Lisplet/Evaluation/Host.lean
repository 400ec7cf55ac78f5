import Lisplet.Evaluation.Cursor
import Lisplet.Method.Signature
import Lisplet.Operator
import Lisplet.Store.Picture

/-!
# Hosts

A host offers functions to scripts and says what they do. The functions of the table are those of
one such host: some build or take apart sequences, some call back, some note down what they are
given, some raise errors, and one is a class of points.
-/

namespace Lisplet

namespace HostFunction

/-- The functions with their names, in the order in which they are offered. -/
def table : List (String × HostFunction) :=
  [("id", .identity), ("list", .list), ("tuple", .tuple), ("apply", .apply), ("map-list", .mapList),
   ("head", .head), ("tail", .tail), ("iter", .iterate), ("probe", .probe), ("record", .record),
   ("fail", .fail), ("fail-bare", .failBare), ("fail-shared", .failShared),
   ("fail-cloji", .failLanguage), ("Point", .point)]

/-- The function that has a name. -/
def ofName? (name : String) : Option HostFunction := table.lookup name

/-- A sequence without its first element. -/
def rest (v : Value) : Action Value := do
  match v with
  | .list _ => Action.newList ((← Action.elements v).drop 1).toArray
  | .tuple _ items => Action.newTuple (items.drop 1)
  | .bytes _ data => Action.copiedBytes (data.drop 1)
  | .dict _ => .raise (.unhashable "slice")
  | v =>
    match v.text? with
    | some text => return .str (String.ofList (text.toList.drop 1))
    | none => Action.noPositions v

/-- Notes something down for the host. -/
def note (picture : Store → Snapshot) : Action Unit :=
  Action.update fun s => { s with notes := picture s :: s.notes }

/-- A point with these coordinates. -/
def makePoint (x y : Value) : Action Value := do
  let attrs : Attributes := [("x", x), ("y", y), ("_tag", .str "p")]
  return .object (← Action.make (·.addObject .point attrs))

/-- Calls a function of the table. -/
def call (m : Machine) (f : HostFunction) (args : List Value) : Action Value := do
  match f, args with
  | .identity, [v] => return v
  | .list, args => Action.newList args.toArray
  | .tuple, args => Action.newTuple args
  | .apply, fn :: args => m.call fn args
  | .mapList, [fn, v] =>
    let results ← m.foldElements v #[] fun item acc => do
      return .yield (acc.push (← m.call fn [item]))
    Action.newList results
  | .head, [v] => Action.subscript v (.int 0)
  | .tail, [v] => rest v
  | .iterate, [v] =>
    let items ← Action.elements v
    return .iterator (← Action.make (·.addIterator .elements items))
  | .probe, [v] =>
    note (·.picture v)
    return v
  | .record, args =>
    note fun s => .list (args.map s.picture)
    return .undefined
  | .fail, [v] => .raise (.raised .value [v])
  | .failBare, [] => .raise (.raised .value [])
  | .failShared, [] =>
    let failure ← Action.gets (·.shared)
    Action.fail { failure with shared := true }
  | .failLanguage, [v] => .raise (.raised .language [v])
  | .point, [] => makePoint (.int 0) (.int 0)
  | .point, [x] => makePoint x (.int 0)
  | .point, [x, y] => makePoint x y
  | _, _ => Arguments.wrongCount

end HostFunction

/-- A host, which says what its functions do. -/
structure Host where
  /-- What a function does with values. It can call back. -/
  run : Machine → HostFunction → List Value → Action Value

/-- The host whose functions are those of the table. -/
def Host.offered : Host := ⟨HostFunction.call⟩

/-- The sum of the coordinates of a point. -/
def pointSum (v : Value) : Action Value := do
  let x ← Property.member v "x"
  let y ← Property.member v "y"
  Operator.apply .add x y

end Lisplet
