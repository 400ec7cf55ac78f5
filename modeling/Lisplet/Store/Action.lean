import Lisplet.Store.Basic
import Lisplet.Value.SetOrder

/-!
# Actions

An action reads and changes the store and ends with a value or an error. Work that is not bounded by
the size of its input is given a number of steps; when they do not suffice the outcome is
`exhausted`, which is neither a value nor an error.
-/

namespace Lisplet

/-- How an action ends. -/
inductive Outcome (α : Type) where
  | done (value : α) (store : Store)
  | failed (failure : Failure) (store : Store)
  | exhausted

/-- Something done to the store. -/
def Action (α : Type) : Type := Store → Outcome α

namespace Action

variable {α β : Type}

/-- Nothing is done, and the value is given. -/
def ret (a : α) : Action α := fun s => .done a s

/-- One action and then another that depends on the value of the first. -/
def andThen (a : Action α) (f : α → Action β) : Action β := fun s =>
  match a s with
  | .done v s' => f v s'
  | .failed e s' => .failed e s'
  | .exhausted => .exhausted

instance : Monad Action where
  pure := ret
  bind := andThen

instance : Inhabited (Action α) := ⟨fun _ => .exhausted⟩

/-- The steps given did not suffice. -/
def exhausted : Action α := fun _ => .exhausted

/-- Raises an error. -/
def fail (e : Failure) : Action α := fun s => .failed e s

/-- Raises a new error. -/
def raise (fault : Fault) : Action α := fail (.fresh fault)

/-- Something read off the store. -/
def gets (f : Store → α) : Action α := fun s => .done (f s) s

/-- A change of the store. -/
def update (f : Store → Store) : Action Unit := fun s => .done () (f s)

/-- A change of the store that also gives a value. -/
def make (f : Store → α × Store) : Action α := fun s =>
  let (a, s) := f s
  .done a s

/-- A value, or an error to raise. -/
def ofExcept : Except Fault α → Action α
  | .ok a => ret a
  | .error fault => raise fault

/-- Something computed from the store, or an error to raise. -/
def compute (f : Store → Except Fault α) : Action α := fun s =>
  match f s with
  | .ok a => .done a s
  | .error fault => .failed (.fresh fault) s

/-- A value that takes steps to compute from the store. -/
def within (f : Store → Option α) : Action α := fun s =>
  match f s with
  | some a => .done a s
  | none => .exhausted

/-- Adds a frame to an error that leaves the action. -/
def framed (frame : Frame) (a : Action α) : Action α := fun s =>
  match a s with
  | .failed e s' => .failed (e.push frame) s'
  | outcome => outcome

/-- Gives another value in place of an error of certain classes. What has become of the error that
the host shares stays with it. -/
def catching (caught : ErrorKind → Bool) (instead : α) (a : Action α) : Action α := fun s =>
  match a s with
  | .failed e s' => if caught e.kind then .done instead (s'.keep e) else .failed e s'
  | outcome => outcome

/-! ## Making values -/

/-- A number that no value has yet. -/
def newId : Action Nat := make fun s => (s.nextId, { s with nextId := s.nextId + 1 })

/-- A new list. -/
def newList (items : Array Value) : Action Value := do
  return .list (← make (·.addList items))

/-- A new tuple; there is only one empty tuple. -/
def newTuple (items : List Value) : Action Value := do
  if items.isEmpty then return .emptyTuple else return .tuple (← newId) items

/-- New bytes; there are only one empty ones. -/
def newBytes (data : List UInt8) : Action Value := do
  if data.isEmpty then return .bytes 0 data else return .bytes (← newId) data

/-- Bytes copied from others; of a single byte there is only one copy. -/
def copiedBytes (data : List UInt8) : Action Value := do
  if data.length ≤ 1 then return .bytes 0 data else newBytes data

/-- A new set of values that are different keys. -/
def newSet (items : List Value) : Action Value := do
  return .set (← newId) (Value.setOrder items)

/-- A new dictionary. -/
def newDict (d : Dict) : Action Value := do
  return .dict (← make (·.addDict d))

/-- A new host function. -/
def newFunction (code : FunctionCode) : Action Value := do
  return .function (← make (·.addFunction code))

/-- A host function of which there is only one. -/
def theFunction (code : FunctionCode) : Action Value := do
  return .function (← make (·.uniqueFunction code))

/-- A new bound method. -/
def newMethod (receiver : Value) (m : Method) : Action Value := do
  return .method receiver m (← newId)

/-- A double as a value; a NaN is a new object. -/
def newFloat (d : Double) : Action Value := do
  if d.isNaN then return .float (.nan (← newId)) else return .float d

/-- Prints a text. -/
def write (text : String) : Action Unit :=
  update fun s => { s with printed := text :: s.printed }

/-- The truth of a value. -/
def truthy (v : Value) : Action Bool := gets (·.truthy v)

/-- The key of a value. -/
def keyOf (v : Value) : Action Key :=
  match v.key with
  | .ok k => ret k
  | .error typeName => raise (.unhashable typeName)

end Action

end Lisplet
