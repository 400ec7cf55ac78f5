import Lisplet.Evaluation.Call

/-!
# Evaluation

A leaf evaluates to what it stands for, a group to a list, a dictionary or the result of a call.
-/

namespace Lisplet

/-- The number that a numeral denotes. -/
def numberOf (text : String) : Action Value :=
  match Numeral.read text with
  | .ok (.whole i) => return .int i
  | .ok (.decimal d) => Action.newFloat d
  | .error e => .raise (Property.numeralFault e)

/-- The value of a keyword. -/
def keywordValue (text : String) : Action Value :=
  match text with
  | "true" => return .bool true
  | "false" => return .bool false
  | "nil" => return .nil
  | "void" => return .undefined
  | text => .raise (.raised (.other "KeyError") [.str text])

namespace Machine

/-- Evaluates a node. -/
def evalNode (m : Machine) (scope : Value) (e : Expr) : Action Value := do
  match e with
  | .host v _ _ => return v
  | .leaf .string text _ => return .str text
  | .leaf .number text _ => numberOf text
  | .leaf .key _ _ | .leaf .rest _ _ => return .node e
  | .leaf .keyword text _ => keywordValue text
  | .leaf .identifier name _ => m.lookup scope (.str name)
  | .group .array items _ => Action.newList (← m.elements scope (items.map .node)).toArray
  | .group .object items _ => Action.newDict (← m.entries scope (items.map .node))
  | .group .call [] mark => .raise (.emptyCall mark.line)
  | .group .call (head :: operands) _ =>
    m.apply scope (.node head) (operands.map .node) (lineOf e)
  | .group .root _ _ => .raise (.notEvaluable (← Action.compute (·.shown (contentOf e))))

/-- Evaluates an operand; nil stands for one that is missing. -/
def evalStep (m : Machine) (scope : Value) : Value → Action Value
  | .nil => return .undefined
  | .node n => m.evalNode scope n
  | v => do .raise (.notNode (← Action.compute (·.shown v)))

end Machine

namespace Host

mutual

/-- Evaluates an operand in a scope with so many steps. -/
def eval (host : Host) : (fuel : Nat) → (scope operand : Value) → Action Value
  | 0, _, _ => .exhausted
  | fuel + 1, scope, operand =>
    Machine.evalStep ⟨fuel, host.eval fuel, host.invoke fuel, host.call fuel, host.apply fuel⟩
      scope operand

/-- Invokes a closure or a form with so many steps. -/
def invoke (host : Host) : (fuel : Nat) → (scope f : Value) → (operands : List Value) →
    Action Value
  | 0, _, _, _ => .exhausted
  | fuel + 1, scope, f, operands =>
    Machine.invokeStep ⟨fuel, host.eval fuel, host.invoke fuel, host.call fuel, host.apply fuel⟩
      scope f operands

/-- Calls a value with so many steps. -/
def call (host : Host) : (fuel : Nat) → (f : Value) → (args : List Value) → Action Value
  | 0, _, _ => .exhausted
  | fuel + 1, f, args =>
    Machine.callStep host
      ⟨fuel, host.eval fuel, host.invoke fuel, host.call fuel, host.apply fuel⟩ f args

/-- Applies what a head denotes with so many steps. -/
def apply (host : Host) : (fuel : Nat) → (scope head : Value) → (operands : List Value) →
    (line : Value) → Action Value
  | 0, _, _, _, _ => .exhausted
  | fuel + 1, scope, head, operands, line =>
    Machine.applyStep ⟨fuel, host.eval fuel, host.invoke fuel, host.call fuel, host.apply fuel⟩
      scope head operands line

end

/-- The machine of a host that has so many steps left. -/
def machine (host : Host) (fuel : Nat) : Machine :=
  ⟨fuel, host.eval fuel, host.invoke fuel, host.call fuel, host.apply fuel⟩

end Host

/-! ## With the functions of the table -/

/-- Evaluates an operand in a scope with so many steps. -/
abbrev eval : (fuel : Nat) → (scope operand : Value) → Action Value := Host.offered.eval

/-- Invokes a closure or a form with so many steps. -/
abbrev invoke : (fuel : Nat) → (scope f : Value) → (operands : List Value) → Action Value :=
  Host.offered.invoke

/-- Calls a value with so many steps. -/
abbrev call : (fuel : Nat) → (f : Value) → (args : List Value) → Action Value :=
  Host.offered.call

/-- Applies what a head denotes with so many steps. -/
abbrev apply : (fuel : Nat) → (scope head : Value) → (operands : List Value) → (line : Value) →
    Action Value :=
  Host.offered.apply

/-- The machine that has so many steps left. -/
abbrev machine : (fuel : Nat) → Machine := Host.offered.machine

end Lisplet
