import Lisplet.Evaluation.Form
import Lisplet.Evaluation.Host
import Lisplet.Evaluation.Sequence
import Lisplet.Method.Bytes
import Lisplet.Method.Number
import Lisplet.Method.Set
import Lisplet.Method.Text

/-!
# Calls

There are two ways to use a function. Closures and forms are invoked with operands that are not
evaluated yet, from the scope of the caller. Everything that can be called, closures and forms
included, can also be called with values; closures and forms then see them as nodes that stand for
these values.
-/

namespace Lisplet

/-! ## Invoking -/

namespace Machine

/-- Invokes a closure: the operands are evaluated in the scope of the caller, and the body runs in a
new scope inside the one that the closure was made in. Binding the parameters can change the
closure, whose body is looked at only then. -/
def invokeClosure (m : Machine) (scope : Value) (r : ClosureRef) (operands : List Value) :
    Action Value := do
  let args ← m.elements scope operands
  let outer ← Property.member (.closure r) "scope"
  let inner := Value.scope (← Action.make (·.addScope [] outer))
  let params ← Operand.content (← Property.member (.closure r) "params")
  discard (m.foldElements params 0 (Pattern.bindPosition m inner (.fixed args)))
  m.block inner (← Property.member (.closure r) "body")

/-- A value in place of a node as a node of its own. -/
def renumbered : Value → Action Value
  | .node (.host v line 0) => do return .node (.host v line (← Action.newId))
  | v => return v

/-- All values in place of nodes as nodes of their own. -/
def renumberedAll : List Value → Action (List Value)
  | [] => return []
  | v :: rest => do
    let here ← renumbered v
    return here :: (← renumberedAll rest)

/-- Invokes a form. What it was made to do is called with the scope and the operands as values. -/
def invokeForm (m : Machine) (scope : Value) (form : Form) (operands : List Value) :
    Action Value := do
  match ← Action.gets (·.formBodies.lookup form) with
  | some body => m.call body (scope :: (← renumberedAll operands))
  | none => form.run m scope operands

/-- Invokes a closure or a form. -/
def invokeStep (m : Machine) (scope f : Value) (operands : List Value) : Action Value :=
  match f with
  | .closure r => m.invokeClosure scope r operands
  | .form form => m.invokeForm scope form operands
  | f => .raise (.notCallable f.typeName)

end Machine

/-! ## Methods of scopes -/

namespace ScopeMethod

/-- How a method of a scope is called as a function. -/
def signature : ScopeMethod → Signature
  | .isDefined => ⟨"Scope.is_defined", ["self", "name"], [], false⟩
  | .isReadOnly => ⟨"Scope.is_read_only", ["self", "name"], [], false⟩
  | .getVar => ⟨"Scope.get_var", ["self", "name"], [], false⟩
  | .get => ⟨"Scope.get", ["self", "name"], [], false⟩
  | .set => ⟨"Scope.set", ["self", "name", "value"], [], false⟩
  | .writeVars => ⟨"Scope._write_vars", ["self", "buffer"], [], false⟩

/-- The text of an entry of a scope. -/
def entryText (e : Entry) : Action String := do
  let key ← Action.compute (·.plain e.key)
  return key ++ ": " ++ (← Action.compute (·.shown e.value))

/-- The texts of entries of a scope. -/
def entryTexts : List Entry → Action (List String)
  | [] => return []
  | e :: rest => do
    let here ← entryText e
    return here :: (← entryTexts rest)

/-- Writes the variables of a scope piece by piece to what takes texts. -/
def writeTo (m : Machine) (r : ScopeRef) (buffer : Value) : Action Unit := do
  let _ ← m.call (← Property.member buffer "write") [.str "\x7b"]
  let write ← Property.member buffer "write"
  let texts ← entryTexts (← Action.compute fun s => s.itemsOf (s.scope r).vars)
  let _ ← m.call write [.str (", ".intercalate texts)]
  let _ ← m.call (← Property.member buffer "write") [.str "\x7d"]

/-- Calls a method of a scope. Names may be values of any type. -/
def call (m : Machine) (method : ScopeMethod) (r : ScopeRef) (args : List Value) :
    Action Value := do
  method.signature.check (args.length + 1)
  match method, args with
  | .isDefined, [name] => return .bool (← r.isDefined name)
  | .isReadOnly, [name] => return .bool (← r.isReadOnly name)
  | .getVar, [name] => r.getVar name
  | .get, [name] => m.lookup (.scope r) name
  | .set, [name, value] => m.assign (.scope r) name value
  | .writeVars, [buffer] => do
    writeTo m r buffer
    return .nil
  | _, _ => Arguments.wrongCount

end ScopeMethod

/-! ## Calling -/

namespace Machine

/-- The entries of a dictionary as arguments by name. -/
def namedArguments : List Entry → Action (List (String × Value))
  | [] => return []
  | e :: rest =>
    match e.key.text? with
    | some name => do return (name, e.value) :: (← namedArguments rest)
    | none => Arguments.refused "keywords must be strings"

/-- Calls what a host function does. -/
def callCode (host : Host) (m : Machine) (code : FunctionCode) (args : List Value) :
    Action Value := do
  match code with
  | .host f => host.run m f args
  | .adapter target scope => m.invoke scope target (args.map wrap)
  | .bound method first named =>
    let named ← namedArguments (← Action.gets (·.dict named)).entries
    method.call m ((← Action.elements first) ++ args) named
  | .unbound method => method.call m args []
  | .formBody form =>
    form.signature.check args.length
    match args with
    | scope :: operands => form.run m scope operands
    | [] => Arguments.wrongCount
  | .pointSum =>
    match args with
    | [v] => pointSum v
    | _ => Arguments.wrongCount

/-- Calls a host function. -/
def callFunction (host : Host) (m : Machine) (r : FunctionRef) (args : List Value) :
    Action Value := do
  match ← Action.gets (·.function? r) with
  | some cell => m.callCode host cell.code args
  | none => return .undefined

/-- Makes a node that stands for a value. -/
def wrapNew (args : List Value) : Action Value := do
  Signature.check ⟨"Node.wrap", ["cls", "value"], ["line"], false⟩ (args.length + 1)
  return .node (.host (args.getD 0 .undefined) (args.getD 1 (.int 0)) (← Action.newId))

/-- Invokes a closure or a form with a scope and operands that are given as values. -/
def invokeWith (m : Machine) (f : Value) (args : List Value) : Action Value := do
  Signature.check ⟨f.typeName ++ ".invoke", ["self", "scope"], [], true⟩ (args.length + 1)
  m.invoke (args.getD 0 .undefined) f (args.drop 1)

/-- Calls a method of a value. -/
def callMethod (host : Host) (m : Machine) (receiver : Value) (method : Method)
    (args : List Value) : Action Value :=
  match method, receiver with
  | .text method, v => method.call (v.text?.getD "").toList args
  | .bytes method, .bytes id data => method.call (.bytes id data) data args
  | .list method, .list r => method.call r args
  | .tuple method, .tuple _ items => method.call items args
  | .set method, .set id items => method.call (.set id items) items args
  | .number method, .float d => method.callDouble d args
  | .number method, .bool b => method.callBool b args
  | .number method, v => method.callInt v.typeName (v.index?.getD 0) args
  | .scope method, .scope r => method.call m r args
  | .wrap, _ => wrapNew args
  | .invoke, f => m.invokeWith f args
  | .function ref, v => m.callFunction host ref (v :: args)
  | _, _ => Arguments.wrongCount

/-- Calls a value with values. -/
def callStep (host : Host) (m : Machine) (f : Value) (args : List Value) : Action Value := do
  match f with
  | .closure _ => do m.invoke (← Property.member f "scope") f (args.map wrap)
  | .form _ =>
    let scope ← Action.make (·.addScope [] .nil)
    m.invoke (.scope scope) f (args.map wrap)
  | .function r => m.callFunction host r args
  | .method receiver method _ => m.callMethod host receiver method args
  | f => .raise (.notCallable f.typeName)

end Machine

end Lisplet
