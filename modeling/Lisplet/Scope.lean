import Lisplet.Property.Basic

/-!
# Names in scopes

A name is looked up in a scope, then in the scope around it, and so on outwards. A dotted name is a
variable followed by the properties below it. Binding a bare name always changes the innermost
scope; a dotted name is written through the value of its variable.

Scripts can put any value in the place of the scope around another one, or of its variables. What
has the slots of a scope acts as one, and what contains a name acts as variables.
-/

namespace Lisplet

/-- A dotted name as its variable and the path of properties below it. -/
def dottedName (name : String) : String × List Value :=
  match Text.splitOn ['.'] none name.toList with
  | [] => (name, [])
  | first :: path => (String.ofList first, path.map fun part => .str (String.ofList part))

/-! ## Walking outwards -/

/-- The variables of what acts as a scope. -/
def Value.varsOf : Value → Action Value
  | .scope r => Action.gets fun s => (s.scope r).vars
  | v => Property.member v "vars"

/-- What stands around what acts as a scope. -/
def Value.parentOf : Value → Action Value
  | .scope r => Action.gets fun s => (s.scope r).parent
  | v => Property.member v "parent"

/-- The nearest variables that contain a name, from a scope outwards to nil, in so many scopes. -/
def holderWithin (name : Value) : (fuel : Nat) → (scope : Value) → Action (Option Value)
  | 0, _ => .exhausted
  | fuel + 1, scope =>
    match scope with
    | .nil => return none
    | scope => do
      let vars ← scope.varsOf
      if ← Action.contains vars name then return some vars
      else holderWithin name fuel (← scope.parentOf)

/-- The most scopes that lie around each other: a chain that visits nothing twice ends after all
scopes, objects and functions, and then comes nil. -/
def Store.chainLength (s : Store) : Nat := s.scopes.size + s.objects.size + s.functions.size + 2

/-- The nearest variables that contain a name, from a scope outwards. -/
def holder? (scope name : Value) : Action (Option Value) := do
  holderWithin name (← Action.gets (·.chainLength)) scope

namespace ScopeRef

/-! ## Reading -/

/-- The name is bound here or further out. -/
def isDefined (r : ScopeRef) (name : Value) : Action Bool := do
  return (← holder? (.scope r) name).isSome

/-- The scope itself was created with the name. -/
def isReadOnly (r : ScopeRef) (name : Value) : Action Bool := do
  Action.contains (← Action.gets fun s => (s.scope r).readOnly) name

/-- The value of a bare name; a name that is not bound is void. -/
def getVar (r : ScopeRef) (name : Value) : Action Value := do
  Property.guardValue name
  match ← holder? (.scope r) name with
  | some vars => Action.subscript vars name
  | none => return .undefined

/-- The value at a path below a variable, which must be bound. -/
def getAt (r : ScopeRef) (base : Value) (path : List Value) : Action Value := do
  Property.guardValue base
  if ← r.isDefined base then Property.getPath (← r.getVar base) path
  else .raise (.undefined (← Action.compute (·.plain base)))

/-- The value of a dotted name. Its variable must be bound. -/
def get (r : ScopeRef) (name : String) : Action Value :=
  let (base, path) := dottedName name
  r.getAt (.str base) path

/-! ## Writing -/

/-- Binds a bare name in the scope itself, whose variables must be a dictionary. -/
def bind (r : ScopeRef) (name value : Value) : Action Unit := do
  match ← Action.gets fun s => (s.scope r).vars with
  | .dict d => do
    let key ← Action.keyOf name
    Action.update fun s => s.setDict d ((s.dict d).insert key name value)
  | .list _ =>
    .raise (.plain .type ("list indices must be integers or slices, not " ++ name.typeName))
  | v => .raise (.plain .type ("'" ++ v.typeName ++ "' object does not support item assignment"))

/-- Binds a variable in the scope itself, or writes at a path below a variable. -/
def setAt (r : ScopeRef) (base : Value) (path : List Value) (value : Value) : Action Value := do
  Property.guardValue base
  if path.isEmpty then
    r.bind base value
    return value
  else Property.setPath (← r.getVar base) path value

/-- Binds a bare name in the scope itself, or writes the property that a dotted name denotes. -/
def set (r : ScopeRef) (name : String) (value : Value) : Action Value :=
  let (base, path) := dottedName name
  r.setAt (.str base) path value

end ScopeRef

end Lisplet
