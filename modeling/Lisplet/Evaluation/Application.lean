import Lisplet.Evaluation.Literal

/-!
# Applications

A call applies what its head denotes to its operands. A head that is an identifier is looked up by
its name, and any other head is evaluated. Closures and forms get the operands as they are, and any
other function gets their values.
-/

namespace Lisplet.Machine

/-- What the head of a call is called in an error: its text, or its kind. -/
def headName (head : Value) : Action String := do
  let content ← Operand.content head
  if content.text?.isSome then Action.compute (·.plain content) else Operand.kindText head

/-- The function that the head of a call denotes. -/
def headValue (m : Machine) (scope head : Value) : Action Value := do
  if ← Operand.isA (.leaf .identifier) head then m.lookup scope (← Operand.content head)
  else m.eval scope head

/-- Applies what the head of a call denotes to the operands. -/
def application (m : Machine) (scope head : Value) (operands : List Value) : Action Value := do
  let f ← m.headValue scope head
  if f.isLanguageFunction then m.invoke scope f operands
  else if f.isCallable then m.call f (← m.elements scope operands)
  else .raise (.notFunction (← headName head))

/-- Applies what the head of a call denotes to the operands. An error that leaves the call takes a
frame for it along. -/
def applyStep (m : Machine) (scope head : Value) (operands : List Value) (line : Value) :
    Action Value :=
  Action.framed ⟨firstIdent (head :: operands), line⟩ (m.application scope head operands)

end Lisplet.Machine
