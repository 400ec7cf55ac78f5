import Lisplet.Evaluation.Cursor

/-!
# Patterns

A pattern takes a value apart, binding names to its parts: by position for an array pattern, by name
for an object pattern. A rest at the end of a pattern takes what is left over.
-/

namespace Lisplet.Pattern

/-- What is taken apart by position: a list, which is read again for each name, since binding a
dotted name can change it, or elements that stay as they are. -/
inductive Source where
  | list (ref : ListRef)
  | fixed (items : List Value)

/-- The elements that a source has now. -/
def Source.elements : Source → Action (List Value)
  | .list r => do return (← Action.gets (·.list r)).toList
  | .fixed items => return items

/-- The source that a value is. -/
def sourceOf (v : Value) : Action Source := do
  match v with
  | .list r => return .list r
  | v =>
    if v.isIterable then return .fixed (← Action.elements v)
    else .raise (.notIterable (← Action.compute (·.shown v)))

/-- Binds the name of one item of an array pattern, which stands at position `i`. A rest ends the
pattern. -/
def bindPosition (m : Machine) (scope : Value) (source : Source) (item : Value) (i : Nat) :
    Action (ForInStep Nat) := do
  let kind ← Operand.kind item
  if Operand.denotes (.leaf .identifier) kind then
    let items ← source.elements
    let _ ← m.assign scope (← Operand.content item) (items[i]?.getD .undefined)
    return .yield (i + 1)
  else if Operand.denotes (.leaf .rest) kind then
    let items ← source.elements
    let rest ← Action.newList (items.drop i).toArray
    let _ ← m.assign scope (← Operand.content item) rest
    return .done (i + 1)
  else return .yield (i + 1)

/-- Binds the names of an array pattern, given by its items, to the elements of a value. -/
def bindArray (m : Machine) (scope items v : Value) : Action Unit := do
  let source ← sourceOf v
  discard (m.foldElements items 0 (bindPosition m scope source))

/-- The entries of a dictionary whose keys are not among others. -/
def unselected (d : Dict) (keys : List Key) : Dict :=
  ⟨d.entries.filter fun e => !keys.contains e.hash⟩

/-- Binds the name of one item of an object pattern. The keys that were bound before it are not part
of a rest, which ends the pattern. -/
def bindProperty (m : Machine) (scope v item : Value) (selected : List Key) :
    Action (ForInStep (List Key)) := do
  let kind ← Operand.kind item
  if Operand.denotes (.leaf .identifier) kind then
    let name ← Operand.content item
    let key ← Action.keyOf name
    Machine.checkAssignable scope
    let part ← Property.get v name
    let _ ← m.assign scope name part
    return .yield (key :: selected)
  else if Operand.denotes (.leaf .rest) kind then
    let own ← Property.own v
    let rest ← Action.newDict (unselected own selected)
    let _ ← m.assign scope (← Operand.content item) rest
    return .done selected
  else return .yield selected

/-- Binds the names of an object pattern, given by its items, to the properties of a value. -/
def bindObject (m : Machine) (scope items v : Value) : Action Unit :=
  discard (m.foldElements items [] (bindProperty m scope v))

/-- The kinds of nodes that name a variable in an assignment. -/
def isName (kind : Value) : Bool :=
  [LeafKind.identifier, .string, .key].any fun k => Operand.denotes (.leaf k) kind

/-- Binds the target of an assignment: a name gives the value, a pattern gives void. -/
def bindTarget (m : Machine) (scope target v : Value) : Action Value := do
  let kind ← Operand.kind target
  if kind.isKind (.group .array) then
    bindArray m scope (← Operand.content target) v
    return .undefined
  else if kind.isKind (.group .object) then
    bindObject m scope (← Operand.content target) v
    return .undefined
  else if isName kind then m.assign scope (← Operand.content target) v
  else
    let (kind, line) ← Operand.described target
    .raise (.badTarget kind line)

end Lisplet.Pattern
