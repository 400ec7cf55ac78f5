import Lisplet.Scope

/-!
# Machines

Evaluation, invocation and calling depend on each other without end. What each of them does for one
step is written against a `Machine`, which stands for all further steps; the knot is tied once, by
recursion on the number of steps that are left.

Scripts can take forms apart and call what is inside them, so that scopes and operands may be values
of any type. An operand is usually a node, and nil stands for one that is missing; any other value
is an error where it is evaluated. What is not a scope is asked for the methods of one.
-/

namespace Lisplet

/-! ## Operands -/

namespace Operand

/-- The kind of an operand. -/
def kind : Value → Action Value
  | .node n => return .kind n.kind
  | v => Property.member v "type"

/-- The content of an operand. -/
def content : Value → Action Value
  | .node n => return contentOf n
  | v => Property.member v "value"

/-- The line of an operand. -/
def line : Value → Action Value
  | .node n => return lineOf n
  | v => Property.member v "line"

/-- The operand is of this very kind. -/
def isA (k : NodeKind) (operand : Value) : Action Bool := do return (← kind operand).isKind k

/-- A value is a kind or the name of one. -/
def denotes (k : NodeKind) (kind : Value) : Bool := kind.text? == some k.name

/-- The text of the kind of an operand. -/
def kindText (operand : Value) : Action String := do
  let name ← Property.member (← kind operand) "value"
  Action.compute (·.plain name)

/-- The texts of the kind and the line of an operand, for an error about it. -/
def described (operand : Value) : Action (String × String) := do
  let kind ← kindText operand
  let line ← line operand
  return (kind, ← Action.compute (·.plain line))

/-- The frame of an operand. -/
def frame (operand : Value) : Action Frame := do
  let content ← content operand
  let line ← line operand
  return ⟨content.ident?, line⟩

end Operand

/-- What evaluation can do with the steps that are left. -/
structure Machine where
  /-- How many rounds a loop may take. -/
  fuel : Nat
  /-- Evaluates an operand in a scope. -/
  eval : (scope operand : Value) → Action Value
  /-- Invokes a closure or a form from a scope with operands that are not evaluated yet. -/
  invoke : (scope f : Value) → (operands : List Value) → Action Value
  /-- Calls a value with values. -/
  call : (f : Value) → (args : List Value) → Action Value
  /-- Applies what a head denotes to operands, as one call on a line. -/
  apply : (scope head : Value) → (operands : List Value) → (line : Value) → Action Value

namespace Machine

/-! ## Scopes -/

/-- The variable of a dotted name and the path of properties below it. What is no text is asked to
split itself at its dots. -/
def segments (m : Machine) (name : Value) : Action (Value × List Value) := do
  match name.text? with
  | some text =>
    let (base, path) := dottedName text
    return (.str base, path)
  | none =>
    let parts ← m.call (← Property.member name "split") [.str "."]
    match parts.isIterable, parts with
    | false, .dict _ | true, _ =>
      match ← Action.elements parts with
      | base :: path => return (base, path)
      | [] => .raise (.plain .value "not enough values to unpack (expected at least 1, got 0)")
    | false, parts =>
      .raise (.plain .type ("cannot unpack non-iterable " ++ parts.typeName ++ " object"))

/-- The value of a dotted name in a scope. A dictionary gives what is under the name, or nil. -/
def lookup (m : Machine) (scope name : Value) : Action Value := do
  match scope with
  | .scope r => do
    let (base, path) ← m.segments name
    r.getAt base path
  | .dict d =>
    let key ← Action.keyOf name
    return ((← Action.gets (·.dict d)).get? key).getD .nil
  | v => do m.call (← Property.member v "get") [name]

/-- Binds a name in a scope, or writes the property that a dotted name denotes. -/
def assign (m : Machine) (scope name value : Value) : Action Value := do
  match scope with
  | .scope r => do
    let (base, path) ← m.segments name
    r.setAt base path value
  | v => do m.call (← Property.member v "set") [name, value]

/-- Refuses what names cannot be bound in. -/
def checkAssignable (scope : Value) : Action Unit :=
  match scope with
  | .scope _ => return
  | v => discard (Property.member v "set")

/-- A scope was created with a name. -/
def isReadOnly (m : Machine) (scope name : Value) : Action Bool := do
  match scope with
  | .scope r => r.isReadOnly name
  | v => do Action.truthy (← m.call (← Property.member v "is_read_only") [name])

/-! ## Several operands -/

/-- Evaluates operands in order. -/
def evalAll (m : Machine) (scope : Value) : List Value → Action (List Value)
  | [] => return []
  | operand :: rest => do
    let v ← m.eval scope operand
    return v :: (← m.evalAll scope rest)

/-- A value in place of a node. -/
def wrap (v : Value) : Value := .node (.host v (.int 0) 0)

end Machine

end Lisplet
