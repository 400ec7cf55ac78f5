import Lisplet.Evaluation.Eval

/-!
# Scripts

A script is a scope inside the core scope. Sources are run in it one after the other, and later ones
see what earlier ones defined. An error in the source itself is always raised; an error while it
runs is raised or recorded, whichever the script was made for, with its trace in the message.
-/

namespace Lisplet

/-! ## The start -/

/-- The core scope, which is the first scope of every store. -/
def coreScope : ScopeRef := ⟨0⟩

/-- A host function, which is in the store from the start. -/
def HostFunction.ref (f : HostFunction) : FunctionRef :=
  ⟨Store.shapeOf (.host f), table.findIdx (·.2 == f)⟩

/-- The core scope's variables: every form under its name. -/
def coreVars : List (String × Value) := Form.all.map fun f => (f.name, .form f)

/-- The store before the first script: the core scope, the host functions, and what adds the
coordinates of a point, which the class of points has as its only attribute. -/
def Store.initial (denylist : List String) : Store :=
  let s := (Store.empty denylist).addScope coreVars .nil |>.2
  let sum : FunctionRef := ⟨.plain, HostFunction.table.length⟩
  let cells : List FunctionCell := HostFunction.table.map fun (_, f) =>
    ⟨.host f, if f == .point then [("sum", .function sum)] else []⟩
  { s with functions := cells.toArray.push ⟨.pointSum, []⟩ }

/-! ## Reports -/

namespace Failure

/-- The message of an error with its trace. -/
def format (s : Store) (f : Failure) : Except Fault String := do
  s.traceText (← s.messageOf f) f.trace

/-- The report on an error. An error that has a trace keeps the first report on it. -/
def attach (s : Store) (f : Failure) : Except Fault (String × Failure) :=
  match f.report with
  | some text => .ok (text, f)
  | none => do
    let text ← f.format s
    return (text, if f.trace.isEmpty then f else { f with report := some text })

end Failure

/-- How something that the host asks for ends. -/
inductive Ending (α : Type) where
  | value (v : α)
  /-- An error was raised, with this report. -/
  | raised (report : String) (failure : Failure)
  /-- An error was recorded, with this report. -/
  | recorded (report : String) (failure : Failure)
  /-- The steps given did not suffice. -/
  | exhausted

/-- Reports an error. If the error has no text, that is an error of its own, and it is raised. -/
def Store.settle {α : Type} (s : Store) (throwing : Bool) (f : Failure) : Ending α × Store :=
  match f.attach s with
  | .error fault => (.raised fault.text (.fresh fault), s.keep f)
  | .ok (report, f) => (if throwing then .raised report f else .recorded report f, s.keep f)

/-- Carries out an action for the host, which gets errors reported. -/
def Store.attempt {α : Type} (s : Store) (throwing : Bool) (a : Action α) : Ending α × Store :=
  match a s with
  | .done v s => (.value v, s)
  | .failed f s => s.settle throwing f
  | .exhausted => (.exhausted, s)

/-! ## Running -/

/-- The steps that a script may nest. -/
def defaultFuel : Nat := 1000000

/-- A scope that sources are run in. -/
structure Script where
  scope : ScopeRef
  /-- Errors are raised, not recorded. -/
  throwing : Bool
  deriving Repr

namespace Script

/-- A new script with global variables, which it may not define again. -/
def create (globals : List (String × Value)) (throwing : Bool) : Action Script := do
  return ⟨← Action.make (·.addScope globals (.scope coreScope)), throwing⟩

/-- Reads a source, whose nodes get identities of their own. -/
def read (source : String) : Action (Program Value) := fun s =>
  match Reader.parse s.nextId source with
  | .ok p => .done p { s with nextId := s.nextId + Reader.identities source }
  | .error e => .failed (.fresh (.malformed e)) s

/-- Evaluates a program in the scope of the script, in a host. -/
def evaluateIn (host : Host) (script : Script) (p : Program Value) : Action Value :=
  (host.machine defaultFuel).block (.scope script.scope) (itemsTuple p.items 0)

/-- Evaluates a program in the scope of the script. -/
abbrev evaluate : Script → Program Value → Action Value := evaluateIn .offered

/-- Runs a source in a host. -/
def execIn (host : Host) (script : Script) (source : String) (s : Store) : Ending Value × Store :=
  match s.attempt true (read source) with
  | (.value p, s) => s.attempt script.throwing (script.evaluateIn host p)
  | (.raised report f, s) | (.recorded report f, s) => (.raised report f, s)
  | (.exhausted, s) => (.exhausted, s)

/-- Runs a source. -/
abbrev exec : Script → String → Store → Ending Value × Store := execIn .offered

/-- The variables of the script in the order of their creation. -/
def vars (script : Script) (s : Store) : List (Value × Value) :=
  (s.vars script.scope).entries.map fun e => (e.key, e.value)

end Script

end Lisplet
