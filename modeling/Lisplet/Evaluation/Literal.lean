import Lisplet.Evaluation.Machine

/-!
# Literals

The elements of an array literal and the entries of an object literal. A spread inserts the elements
of a list or tuple, or the properties of any value, in its place.
-/

namespace Lisplet.Machine

/-- The elements that a spread inserts. Every value with elements may be spread, but only lists and
tuples contribute theirs. -/
def spread (m : Machine) (scope name : Value) : Action (List Value) := do
  match ← m.lookup scope name with
  | .list r => return (← Action.gets (·.list r)).toList
  | .tuple _ items => return items
  | v =>
    if v.isIterable then return [] else .raise (.notIterable (← Action.compute (·.plain name)))

/-- The elements that one item of an array literal gives. -/
def itemElements (m : Machine) (scope item : Value) : Action (List Value) := do
  if ← Operand.isA (.leaf .rest) item then m.spread scope (← Operand.content item)
  else return [← m.eval scope item]

/-- The elements of an array literal. -/
def elements (m : Machine) (scope : Value) : List Value → Action (List Value)
  | [] => return []
  | item :: rest => do
    let here ← m.itemElements scope item
    return here ++ (← m.elements scope rest)

/-- Puts a value under a key. -/
def insertInto (d : Dict) (key value : Value) : Action Dict := do
  return d.insert (← Action.keyOf key) key value

/-- The item that follows a key begins another entry: it is missing, a key or a spread. -/
def beginsEntry : Value → Action Bool
  | .nil => return true
  | item => do
    let kind ← Operand.kind item
    return Operand.denotes (.leaf .key) kind || Operand.denotes (.leaf .rest) kind

/-- Adds the entries of an object literal to a dictionary; later entries win. A key that no value
follows is void. Items that are neither key, value nor spread are passed over. -/
def entriesInto (m : Machine) (scope : Value) (d : Dict) : List Value → Action Dict
  | [] => return d
  | item :: rest => do
    let kind ← Operand.kind item
    if kind.isKind (.leaf .rest) then
      let own ← Property.own (← m.lookup scope (← Operand.content item))
      m.entriesInto scope (d.update own) rest
    else if kind.isKind (.leaf .key) then
      match rest with
      | [] => insertInto d (← Operand.content item) .undefined
      | next :: others =>
        if ← beginsEntry next then
          let d ← insertInto d (← Operand.content item) .undefined
          m.entriesInto scope d (next :: others)
        else
          let v ← m.eval scope next
          let d ← insertInto d (← Operand.content item) v
          m.entriesInto scope d others
    else m.entriesInto scope d rest

/-- The entries of an object literal. -/
def entries (m : Machine) (scope : Value) (items : List Value) : Action Dict :=
  m.entriesInto scope .empty items

end Lisplet.Machine
