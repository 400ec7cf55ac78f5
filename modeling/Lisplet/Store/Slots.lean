import Lisplet.Store.Basic

/-!
# Slots and elements

A slot is an attribute that holds a value, unlike a method, which is made each time it is read.
`Store.slot?` reads the slots of every kind of value. `Store.elements` gives what a value contains,
one element after the other, and `Store.sizeOf` how many there are.
-/

namespace Lisplet

/-! ## Nodes -/

/-- The tuple of a group's items as a value. -/
def itemsTuple (items : List Expr) (id : Nat) : Value :=
  if items.isEmpty then .emptyTuple else .tuple id (items.map .node)

/-- The content of a node: its text, the tuple of its items or its value. -/
def contentOf : Expr → Value
  | .leaf _ text _ => .str text
  | .group _ items mark => itemsTuple items (mark.id + 1)
  | .host value _ _ => value

/-- A slot of a node. -/
def nodeSlot? (n : Expr) : String → Option Value
  | "type" => some (.kind n.kind)
  | "value" => some (contentOf n)
  | "line" => some (lineOf n)
  | "is_composite" => some (.bool n.isComposite)
  | _ => none

/-! ## Numbers -/

/-- A slot of an integer. -/
def intSlot? (i : Int) : String → Option Value
  | "real" | "numerator" => some (.int i)
  | "imag" => some (.int 0)
  | "denominator" => some (.int 1)
  | _ => none

/-- A slot of a double. -/
def doubleSlot? (d : Double) : String → Option Value
  | "real" => some (.float d)
  | "imag" => some (.float .zero)
  | _ => none

namespace Store

/-! ## What the store holds -/

/-- The name of a form, its own or the one it was given. -/
def formName (s : Store) (f : Form) : Value := (s.formNames.lookup f).getD (.str f.name)

/-- A slot of a kind of node: its name, its constant, or one that it was given. -/
def kindSlot? (s : Store) (k : NodeKind) : String → Option Value
  | "value" => some (.str k.name)
  | "name" => some (.str k.constant)
  | name => (s.kindAttributesOf k).get? name

/-- A slot of a closure. -/
def closureSlot? (s : Store) (r : ClosureRef) (name : String) : Option Value :=
  match s.closure? r, name with
  | some c, "params" => some c.params
  | some c, "body" => some c.body
  | some c, "scope" => some c.scope
  | _, _ => none

/-- A slot of a scope. -/
def scopeSlot? (s : Store) (r : ScopeRef) : String → Option Value
  | "vars" => some (s.scope r).vars
  | "read_only" => some (s.scope r).readOnly
  | "parent" => some (s.scope r).parent
  | _ => none

/-- A slot of a host function: one that it was given, or an argument that a bound sequence method
remembers. -/
def functionSlot? (s : Store) (r : FunctionRef) (name : String) : Option Value :=
  (s.function? r).bind fun cell =>
    match cell.code, name with
    | .bound _ first _, "args" => some first
    | .bound _ _ named, "keywords" => some (.dict named)
    | _, name => cell.attributes.get? name

/-- A slot of a host object: one of its own, or one of its class. A function of the class is a
method of the object and no slot. -/
def objectSlot? (s : Store) (r : ObjectRef) (name : String) : Option Value :=
  match (s.object r).get? name, r.cls with
  | some v, _ => some v
  | none, .plain => none
  | none, .point =>
    match s.pointClass.get? name with
    | some (.function ⟨.plain, _⟩) => none
    | v => v

/-- A slot of a value. -/
def slot? (s : Store) (v : Value) (name : String) : Option Value :=
  match v with
  | .bool b => intSlot? (if b then 1 else 0) name
  | .int i => intSlot? i name
  | .float d => doubleSlot? d name
  | .kind k => s.kindSlot? k name
  | .node n => nodeSlot? n name
  | .closure r => s.closureSlot? r name
  | .form f => if name == "name" then some (s.formName f) else none
  | .function r => s.functionSlot? r name
  | .method _ (.function r) _ => s.functionSlot? r name
  | .object r => s.objectSlot? r name
  | .scope r => s.scopeSlot? r name
  | _ => none

/-- The error for an attribute that a value does not have. -/
def missingAttribute (v : Value) (name : String) : Fault :=
  match v with
  | .function ⟨.cls, _⟩ =>
    .plain .missingAttribute ("type object 'Point' has no attribute '" ++ name ++ "'")
  | v => .noAttribute v.typeName name

/-- A slot that a value must have. -/
def requiredSlot (s : Store) (v : Value) (name : String) : Except Fault Value :=
  match s.slot? v name with
  | some value => .ok value
  | none => .error (missingAttribute v name)

end Store

/-! ## Elements -/

/-- The characters of a text as values. -/
def charValues (s : String) : List Value := s.toList.map fun c => .str c.toString

/-- Bytes as integers. -/
def byteValues (data : List UInt8) : List Value := data.map fun b => .int b.toNat

/-- The value can be spread or taken apart by position. Dictionaries have elements for the host, but
not for a script that spreads them or takes them apart. -/
def Value.isIterable : Value → Bool
  | .list _ | .tuple _ _ | .str _ | .kind _ | .bytes _ _ | .set _ _ | .iterator _ => true
  | _ => false

namespace Store

/-- The elements of a value; of an iterator those that are left. -/
def elements (s : Store) (v : Value) : Except Fault (List Value) :=
  match v with
  | .list r => .ok (s.list r).toList
  | .tuple _ items => .ok items
  | .set _ items => .ok items
  | .bytes _ data => .ok (byteValues data)
  | .dict r => .ok (s.dict r).keys
  | .iterator r => .ok (s.iterator r)
  | v =>
    match v.text? with
    | some text => .ok (charValues text)
    | none => .error (.plain .type ("'" ++ v.typeName ++ "' object is not iterable"))

/-- The number of elements of a value; an iterator does not know it. -/
def sizeOf (s : Store) (v : Value) : Except Fault Nat :=
  match v with
  | .list r => .ok (s.list r).size
  | .tuple _ items => .ok items.length
  | .set _ items => .ok items.length
  | .bytes _ data => .ok data.length
  | .dict r => .ok (s.dict r).size
  | v =>
    match v.text? with
    | some text => .ok text.length
    | none => .error (.plain .type ("object of type '" ++ v.typeName ++ "' has no len()"))

end Store

end Lisplet
