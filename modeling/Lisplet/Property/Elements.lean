import Lisplet.Store.Equality
import Lisplet.Store.Shown
import Lisplet.Store.Slots
import Lisplet.Text.Search

/-!
# Elements and positions

What the host does with a value that contains others: go through its elements, test whether it
contains a value, and read what stands at a position or under a key.
-/

namespace Lisplet

/-- The place of an index in a sequence of a given length, if it has one. -/
def place? (length : Nat) (i : Int) : Option Nat :=
  if 0 ≤ i && i < length then some i.toNat else none

/-- The place of an index that may count from the end. -/
def placeFromEnd? (length : Nat) (i : Int) : Option Nat :=
  place? length (if i < 0 then i + length else i)

/-- The byte that an integer is. -/
def byte? (i : Int) : Option UInt8 := (place? 256 i).map UInt8.ofNat

namespace Action

/-! ## Elements -/

/-- The elements of a value; an iterator gives them up. -/
def elements (v : Value) : Action (List Value) := do
  let items ← compute (·.elements v)
  match v with
  | .iterator r => update (·.setIterator r [])
  | _ => pure ()
  return items

/-! ## Membership -/

/-- One of some values equals another one. -/
def anyEqual (value : Value) : List Value → Action Bool
  | [] => return false
  | v :: rest => do
    if ← within (·.equal v value) then return true else anyEqual value rest

/-- Takes values from an iterator until one equals another value. -/
def anyTaken (r : IteratorRef) (value : Value) : List Value → Action Bool
  | [] => return false
  | v :: rest => do
    update (·.setIterator r rest)
    if ← within (·.equal v value) then return true else anyTaken r value rest

/-- The key of a value is among the keys of some values. -/
def keyAmong (value : Value) (items : List Value) : Action Bool := do
  let key ← keyOf value
  return items.any fun item => item.key.toOption == some key

/-- A byte or other bytes occur in bytes. -/
def containsBytes (data : List UInt8) (value : Value) : Action Bool :=
  match value, value.index? with
  | .bytes _ part, _ => return (Text.find? part data).isSome
  | _, some i =>
    match byte? i with
    | some b => return data.contains b
    | none => raise (.plain .value "byte must be in range(0, 256)")
  | _, none =>
    raise (.plain .type ("a bytes-like object is required, not '" ++ value.typeName ++ "'"))

/-- A part occurs in a text. -/
def containsText (text : String) (part : Value) : Action Bool :=
  match part.text? with
  | some part => return (Text.find? part.toList text.toList).isSome
  | none =>
    raise (.plain .type
      ("'in <string>' requires string as left operand, not " ++ part.typeName))

/-- A container contains a value: as an equal element, as a key, or as a part. -/
def contains (container value : Value) : Action Bool := do
  match container with
  | .list r => anyEqual value (← gets (·.list r)).toList
  | .tuple _ items => anyEqual value items
  | .dict r => do
    let key ← keyOf value
    return (← gets (·.dict r)).contains key
  | .set _ items => keyAmong value items
  | .bytes _ data => containsBytes data value
  | .iterator r => anyTaken r value (← gets (·.iterator r))
  | v =>
    match v.text? with
    | some text => containsText text value
    | none => raise (.plain .type ("argument of type '" ++ v.typeName ++ "' is not iterable"))

/-! ## Positions -/

/-- What stands at a position of a sequence, which may count from the end. -/
def atPosition {α : Type} (name complaint : String) (items : List α) (key : Value) : Action α := do
  match key.index? with
  | none => raise (.plain .type complaint)
  | some i =>
    let bound : Int := Nat.pow 2 63
    if bound ≤ i || i < -bound then
      raise (.plain .index "cannot fit 'int' into an index-sized integer")
    else
      match (placeFromEnd? items.length i).bind (items[·]?) with
      | some item => return item
      | none => raise (.plain .index (name ++ "index out of range"))

/-- The error for a value without positions and keys. -/
def noPositions {α : Type} (v : Value) : Action α :=
  match v with
  | .function ⟨.cls, _⟩ => raise (.plain .type "type 'Point' is not subscriptable")
  | v => raise (.plain .type ("'" ++ v.typeName ++ "' object is not subscriptable"))

/-- What a container has at a position or under a key. -/
def subscript (container key : Value) : Action Value := do
  let indices := fun name : String =>
    name ++ " indices must be integers or slices, not " ++ key.typeName
  match container with
  | .list r => atPosition "list " (indices "list") (← gets (·.list r)).toList key
  | .tuple _ items => atPosition "tuple " (indices "tuple") items key
  | .bytes _ data => atPosition "" (indices "byte") (byteValues data) key
  | .dict r =>
    match (← gets (·.dict r)).get? (← keyOf key) with
    | some v => return v
    | none => raise (.raised (.other "KeyError") [key])
  | v =>
    match v.text? with
    | some text =>
      atPosition "string " ("string indices must be integers, not '" ++ key.typeName ++ "'")
        (charValues text) key
    | none => noPositions v

end Action

end Lisplet
