import Lisplet.Value.Key
import Lisplet.Snapshot
import Lisplet.Fault

/-!
# The store

The store holds everything that can change while a script runs: lists, dictionaries, scopes,
closures, host objects, the attributes of functions, iterators, what was printed and what the host
noted down. A reference is an index into one of its tables. Tables only grow; reading through a
reference that the store does not have gives an empty thing. Scripts can write into the slots of
scopes and closures, so these hold values of any type, whether they fit or not.
-/

namespace Lisplet

/-- Attributes in the order of their creation. -/
abbrev Attributes := List (String × Value)

namespace Attributes

/-- The value of an attribute. -/
def get? (attrs : Attributes) (name : String) : Option Value := attrs.lookup name

/-- Gives an attribute a value. An attribute that exists keeps its place. -/
def set (attrs : Attributes) (name : String) (value : Value) : Attributes :=
  match attrs with
  | [] => [(name, value)]
  | (n, v) :: rest => if n == name then (n, value) :: rest else (n, v) :: set rest name value

end Attributes

/-- A scope. -/
structure Scope where
  /-- The dictionary of its variables. -/
  vars : Value
  /-- The set of the names it was created with. -/
  readOnly : Value
  /-- The scope around it, or nil. -/
  parent : Value
  deriving Repr, Inhabited

/-- A function of the language. -/
structure Closure where
  /-- The node of its parameter pattern. -/
  params : Value
  /-- The tuple of the nodes of its body. -/
  body : Value
  /-- The scope it was made in. -/
  scope : Value
  deriving Repr

/-- The functions that a host offers to scripts. What they do is up to the host. -/
inductive HostFunction where
  | identity | list | tuple | apply | mapList | head | tail | iterate | probe | record | fail
  | failBare | failShared | failLanguage | point
  /-- A function that only this host has. -/
  | other (name : String)
  deriving DecidableEq, Repr

/-- What a host function does. -/
inductive FunctionCode where
  | host (f : HostFunction)
  /-- Calls a closure or form of the language with plain values. -/
  | adapter (target scope : Value)
  /-- A sequence method with arguments that come before those of a call: the sequence it was read
  from, and what is given for parameters by name. -/
  | bound (m : SequenceMethod) (first : Value) (named : DictRef)
  /-- A sequence method that takes the sequence as its first argument. -/
  | unbound (m : SequenceMethod)
  /-- What a form does, as a function of a scope and nodes. -/
  | formBody (f : Form)
  /-- Adds the coordinates of the point it is given. -/
  | pointSum
  deriving Repr

/-- Two functions do the same, of which there is only one in a store: a sequence method without a
sequence, or what a form does. -/
def FunctionCode.isUnique : FunctionCode → FunctionCode → Bool
  | .unbound m, .unbound n => m == n
  | .formBody f, .formBody g => f == g
  | _, _ => false

/-- The function is the class of points. -/
def FunctionCode.isPoint : FunctionCode → Bool
  | .host .point => true
  | _ => false

/-- A host function and its attributes. -/
structure FunctionCell where
  code : FunctionCode
  attributes : Attributes
  deriving Repr

/-- Everything that can change while a script runs. -/
structure Store where
  lists : Array (Array Value)
  dicts : Array Dict
  scopes : Array Scope
  closures : Array Closure
  objects : Array Attributes
  functions : Array FunctionCell
  /-- What each iterator has left to give. -/
  iterators : Array (List Value)
  /-- The attributes that kinds of nodes were given. -/
  kindAttributes : List (NodeKind × Attributes)
  /-- The names that forms were given in place of their own. -/
  formNames : List (Form × Value)
  /-- What forms were made to do in place of what they do by themselves. -/
  formBodies : List (Form × Value)
  /-- The next number for a value whose identity can be tested. -/
  nextId : Nat
  /-- What was printed, last piece first. -/
  printed : List String
  /-- What the host noted down, last note first. -/
  notes : List Snapshot
  /-- The error that the host raises again and again. -/
  shared : Failure
  /-- The names that scripts may not touch. -/
  denylist : List String

namespace Store

/-- The text of the error that the host shares between all its uses. -/
def sharedFailure : Failure :=
  { Failure.fresh (.raised .value [.str "host: shared"]) with shared := true }

/-- The store before anything has happened. -/
def empty (denylist : List String) : Store where
  lists := #[]
  dicts := #[]
  scopes := #[]
  closures := #[]
  objects := #[]
  functions := #[]
  iterators := #[]
  kindAttributes := []
  formNames := []
  formBodies := []
  nextId := 1
  printed := []
  notes := []
  shared := sharedFailure
  denylist := denylist

/-! ## Reading -/

/-- The elements of a list. -/
def list (s : Store) (r : ListRef) : Array Value := s.lists.getD r.index #[]

/-- The content of a dictionary. -/
def dict (s : Store) (r : DictRef) : Dict := s.dicts.getD r.index .empty

/-- A scope. -/
def scope (s : Store) (r : ScopeRef) : Scope := s.scopes.getD r.index default

/-- The variables of a scope. -/
def vars (s : Store) (r : ScopeRef) : Dict :=
  match (s.scope r).vars with
  | .dict d => s.dict d
  | _ => .empty

/-- A closure. -/
def closure? (s : Store) (r : ClosureRef) : Option Closure := s.closures[r.index]?

/-- The attributes of a host object. -/
def object (s : Store) (r : ObjectRef) : Attributes := s.objects.getD r.index []

/-- A host function. -/
def function? (s : Store) (r : FunctionRef) : Option FunctionCell := s.functions[r.index]?

/-- The attributes of the class of points. -/
def pointClass (s : Store) : Attributes :=
  ((s.functions.find? fun cell => cell.code.isPoint).map (·.attributes)).getD []

/-- The attributes that a kind of node was given. -/
def kindAttributesOf (s : Store) (k : NodeKind) : Attributes := (s.kindAttributes.lookup k).getD []

/-- What an iterator has left to give. -/
def iterator (s : Store) (r : IteratorRef) : List Value := s.iterators.getD r.index []

/-! ## Writing -/

/-- Replaces the elements of a list. -/
def setList (s : Store) (r : ListRef) (items : Array Value) : Store :=
  { s with lists := s.lists.setIfInBounds r.index items }

/-- Replaces the content of a dictionary. -/
def setDict (s : Store) (r : DictRef) (d : Dict) : Store :=
  { s with dicts := s.dicts.setIfInBounds r.index d }

/-- Replaces a scope. -/
def setScope (s : Store) (r : ScopeRef) (scope : Scope) : Store :=
  { s with scopes := s.scopes.setIfInBounds r.index scope }

/-- Replaces a closure. -/
def setClosure (s : Store) (r : ClosureRef) (c : Closure) : Store :=
  { s with closures := s.closures.setIfInBounds r.index c }

/-- Replaces the attributes of a host object. -/
def setObject (s : Store) (r : ObjectRef) (attrs : Attributes) : Store :=
  { s with objects := s.objects.setIfInBounds r.index attrs }

/-- Gives an attribute of a host function a value. -/
def setFunctionAttribute (s : Store) (r : FunctionRef) (name : String) (value : Value) : Store :=
  { s with functions := s.functions.modify r.index fun cell =>
      { cell with attributes := cell.attributes.set name value } }

/-- Replaces what an iterator has left to give. -/
def setIterator (s : Store) (r : IteratorRef) (items : List Value) : Store :=
  { s with iterators := s.iterators.setIfInBounds r.index items }

/-! ## Making -/

/-- A new list. -/
def addList (s : Store) (items : Array Value) : ListRef × Store :=
  (⟨s.lists.size⟩, { s with lists := s.lists.push items })

/-- A new dictionary. -/
def addDict (s : Store) (d : Dict) : DictRef × Store :=
  (⟨s.dicts.size⟩, { s with dicts := s.dicts.push d })

/-- A new scope with these variables, whose names are read-only in it. -/
def addScope (s : Store) (vars : List (String × Value)) (parent : Value) : ScopeRef × Store :=
  let d := Dict.ofTexts vars
  let (dictRef, s) := s.addDict d
  (⟨s.scopes.size⟩,
    { s with
      scopes := s.scopes.push ⟨.dict dictRef, .set s.nextId d.keys, parent⟩
      nextId := s.nextId + 1 })

/-- A new closure. -/
def addClosure (s : Store) (c : Closure) : ClosureRef × Store :=
  (⟨s.closures.size⟩, { s with closures := s.closures.push c })

/-- A new host object. -/
def addObject (s : Store) (cls : ObjectClass) (attrs : Attributes) : ObjectRef × Store :=
  (⟨cls, s.objects.size⟩, { s with objects := s.objects.push attrs })

/-- How a host function looks from outside. -/
def shapeOf : FunctionCode → FunctionShape
  | .host .point => .cls
  | .bound _ _ _ => .bound
  | _ => .plain

/-- A new host function. -/
def addFunction (s : Store) (code : FunctionCode) : FunctionRef × Store :=
  (⟨shapeOf code, s.functions.size⟩, { s with functions := s.functions.push ⟨code, []⟩ })

/-- A function of which there is only one: the one that is there, or a new one. -/
def uniqueFunction (s : Store) (code : FunctionCode) : FunctionRef × Store :=
  match s.functions.findIdx? (·.code.isUnique code) with
  | some i => (⟨shapeOf code, i⟩, s)
  | none => s.addFunction code

/-- A new iterator. -/
def addIterator (s : Store) (shape : IteratorShape) (items : List Value) : IteratorRef × Store :=
  (⟨shape, s.iterators.size⟩, { s with iterators := s.iterators.push items })

/-- Remembers what has become of the error that the host shares between its uses. -/
def keep (s : Store) (f : Failure) : Store := if f.shared then { s with shared := f } else s

/-! ## Views -/

/-- Everything that was printed. -/
def output (s : Store) : String := String.join s.printed.reverse

/-- Everything that the host noted down, in order. -/
def log (s : Store) : List Snapshot := s.notes.reverse

/-- The truth of a value: void, nil, false, zero and everything empty are false. -/
def truthy (s : Store) : Value → Bool
  | .undefined | .nil => false
  | .bool b => b
  | .int i => i != 0
  | .float d => !d.isZero
  | .str t => !t.isEmpty
  | .bytes _ data => !data.isEmpty
  | .list r => !(s.list r).isEmpty
  | .tuple _ items => !items.isEmpty
  | .set _ items => !items.isEmpty
  | .dict r => (s.dict r).size != 0
  | _ => true

end Store

end Lisplet
