import Lisplet.Evaluation.Application
import Lisplet.Evaluation.Pattern
import Lisplet.Method.Signature
import Lisplet.Operator

/-!
# Forms

The forms and operators of the core scope. A form receives the scope it is invoked from and its
operands, and decides itself which of them are evaluated, in what order and how often. An operand
that is missing is nil.
-/

namespace Lisplet.Form

/-- How a form is called as a function: the scope comes first, then the operands. -/
def signature : Form → Signature
  | .comment => ⟨"comment_form", ["scope"], [], true⟩
  | .define => ⟨"def_form", ["scope"], ["target", "value"], false⟩
  | .assign => ⟨"set_form", ["scope"], ["target", "value"], false⟩
  | .lambda => ⟨"fn_form", ["scope"], ["params"], true⟩
  | .defineFunction => ⟨"defn_form", ["scope"], ["name", "params"], true⟩
  | .adapt => ⟨"jsfn_form", ["scope"], ["target"], true⟩
  | .print => ⟨"print_form", ["scope"], [], true⟩
  | .choose => ⟨"if_form", ["scope"], ["cond", "then", "otherwise"], false⟩
  | .cond => ⟨"cond_form", ["scope"], [], true⟩
  | .object => ⟨"object_form", ["scope"], [], true⟩
  | .array => ⟨"array_form", ["scope"], ["array_like", "map_fn"], false⟩
  | .construct => ⟨"new_form", ["scope"], ["cls"], true⟩
  | .getPath => ⟨"aget_form", ["scope"], ["obj"], true⟩
  | .setPath => ⟨"aset_form", ["scope"], ["obj"], true⟩
  | .thread => ⟨"thread_form", ["scope"], ["initial"], true⟩
  | .doto => ⟨"doto_form", ["scope"], ["initial"], true⟩
  | .operator _ => ⟨"binary_operator.<locals>.form", ["scope"], [], true⟩
  | .negate => ⟨"not_form", ["scope"], ["operand"], true⟩

/-- The operand at a place; nil if there is none. -/
def operand (operands : List Value) (i : Nat) : Value := operands.getD i .nil

/-! ## Names and functions -/

/-- Refuses to define a name that the scope was created with. -/
def checkRebind (m : Machine) (scope target : Value) : Action Unit := do
  if ← Operand.isA (.leaf .identifier) target then
    let name ← Operand.content target
    if ← m.isReadOnly scope name then .raise (.readOnly (← Action.compute (·.plain name)))

/-- Evaluates the second operand and binds the first one to it. -/
def runAssign (m : Machine) (scope : Value) (operands : List Value) : Action Value := do
  match operand operands 0 with
  | .nil => .raise (.missingOperand "set requires a name or pattern and a value")
  | target => Pattern.bindTarget m scope target (← m.eval scope (operand operands 1))

/-- Binds a name or a pattern, but no name that the scope was created with. -/
def runDefine (m : Machine) (scope : Value) (operands : List Value) : Action Value := do
  match operand operands 0 with
  | .nil => .raise (.missingOperand "def requires a name or pattern and a value")
  | target =>
    checkRebind m scope target
    runAssign m scope operands

/-- Makes a closure that remembers the scope. -/
def makeClosure (scope : Value) (operands : List Value) : Action Value := do
  match operand operands 0 with
  | .nil => .raise (.missingOperand "fn requires at least a parameter list")
  | params =>
    if ← Operand.isA (.group .array) params then
      let body ← Action.newTuple (operands.drop 1)
      return .closure (← Action.make (·.addClosure ⟨params, body, scope⟩))
    else
      let (kind, line) ← Operand.described params
      .raise (.badParameters kind line)

/-- Makes a closure and binds it to a name. -/
def runDefineFunction (m : Machine) (scope : Value) (operands : List Value) : Action Value := do
  match operand operands 0 with
  | .nil => .raise (.missingOperand "defn requires a name and a parameter list")
  | name =>
    if ← Operand.isA (.leaf .identifier) name then
      checkRebind m scope name
      Machine.checkAssignable scope
      m.assign scope (← Operand.content name) (← makeClosure scope (operands.drop 1))
    else
      let (kind, line) ← Operand.described name
      .raise (.badFunctionName kind line)

/-- The closure or the form that operands denote; without operands there is none. -/
def languageFunction? (m : Machine) (scope : Value) (operands : List Value) :
    Action (Option Value) := do
  match operand operands 0 with
  | .nil => return none
  | target =>
    let fn ←
      if ← Operand.isA (.group .array) target then makeClosure scope operands
      else m.eval scope target
    if fn.isLanguageFunction then return some fn else .raise (.notAdaptable fn.shortTypeName)

/-- A host function that invokes a closure or a form from this scope. -/
def runAdapt (m : Machine) (scope : Value) (operands : List Value) : Action Value := do
  match ← languageFunction? m scope operands with
  | some fn => Action.newFunction (.adapter fn scope)
  | none => return .undefined

/-! ## Output and choice -/

/-- Prints values with blanks between them and a line feed at the end. What comes before a value
that has no text is printed. -/
def printAll : (isFirst : Bool) → List Value → Action Unit
  | _, [] => Action.write "\n"
  | isFirst, v :: rest => do
    unless isFirst do Action.write " "
    Action.write (← Action.compute (·.plain v))
    printAll false rest

/-- Evaluates and prints the operands. -/
def runPrint (m : Machine) (scope : Value) (operands : List Value) : Action Value := do
  printAll true (← m.evalAll scope operands)
  return .undefined

/-- Evaluates one of two branches. -/
def runChoose (m : Machine) (scope : Value) (operands : List Value) : Action Value := do
  match operand operands 0 with
  | .nil => .raise (.missingOperand "if requires a condition")
  | condition =>
    if ← Action.truthy (← m.eval scope condition) then m.eval scope (operand operands 1)
    else m.eval scope (operand operands 2)

/-- The value after the first true one, in pairs of conditions and results. -/
def firstTrue (s : Store) : List Value → Value
  | [] => .undefined
  | [_] => .undefined
  | condition :: result :: rest => if s.truthy condition then result else firstTrue s rest

/-- Evaluates all conditions and results and chooses among them. -/
def runCond (m : Machine) (scope : Value) (operands : List Value) : Action Value := do
  let values ← m.elements scope operands
  Action.gets (firstTrue · values)

/-! ## Objects and arrays -/

/-- The text of bytes that are all characters of ASCII. -/
def asciiText? (data : List UInt8) : Option String :=
  if data.all (· < 128) then some (String.ofList (data.map fun b => Char.ofNat b.toNat)) else none

/-- The integer that a length counts as. -/
def lengthOf (v : Value) : Action Int :=
  match v with
  | .float d =>
    match d, d.truncate? with
    | _, some i => return i
    | .nan _, none => .raise (.plain .value "cannot convert float NaN to integer")
    | _, none => .raise (.plain .overflow "cannot convert float infinity to integer")
  | .bytes _ data =>
    match asciiText? data |>.map (Numeral.readWhole 10) with
    | some (.ok i) => return i
    | _ =>
      .raise (.plain .value
        ("invalid literal for int() with base 10: " ++ Text.quotedBytes data))
  | v =>
    match v.index?, v.text? with
    | some i, _ => return i
    | none, some text =>
      match Numeral.readWhole 10 text with
      | .ok i => return i
      | .error e => .raise (Property.numeralFault e)
    | none, none =>
      .raise (.plain .type
        ("int() argument must be a string, a bytes-like object or a real number, not '"
          ++ v.typeName ++ "'"))

/-- The slot at a position of an object that has a length: under the number, or else its text. -/
def slot (d : Dict) (i : Nat) : Value :=
  ((d.get? [.int i]).or (d.getText? (toString i))).getD .undefined

/-- The elements of an array made from a value: the slots of an object with a length, or a copy of
the elements of anything that has some. -/
def arrayElements (v : Value) : Action (List Value) := do
  match v with
  | .dict r =>
    let d ← Action.gets (·.dict r)
    let length := (d.getText? "length").getD (.int 0)
    if length.isNullish then return []
    else
      let n ← lengthOf length
      return (List.range n.toNat).map (slot d)
  | v => if v.isIterable then Action.elements v else return []

/-- Invokes a closure or a form with each element and its position. -/
def mapIndexed (m : Machine) (scope fn : Value) : (i : Nat) → List Value → Action (List Value)
  | _, [] => return []
  | i, v :: rest => do
    let result ← m.invoke scope fn [Machine.wrap v, Machine.wrap (.int i)]
    return result :: (← mapIndexed m scope fn (i + 1) rest)

/-- Makes an array from a value. The function for its elements is looked at first. -/
def runArray (m : Machine) (scope : Value) (operands : List Value) : Action Value := do
  let fn ← languageFunction? m scope [operand operands 1]
  let items ← arrayElements (← m.eval scope (operand operands 0))
  match fn with
  | some fn => Action.newList (← mapIndexed m scope fn 0 items).toArray
  | none => Action.newList items.toArray

/-- Makes an object from keys, values and spreads. -/
def runObject (m : Machine) (scope : Value) (operands : List Value) : Action Value := do
  Action.newDict (← m.entries scope operands)

/-- Calls a constructor with values. -/
def runConstruct (m : Machine) (scope : Value) (operands : List Value) : Action Value := do
  match operand operands 0 with
  | .nil => .raise (.missingOperand "new requires a constructor")
  | cls =>
    let constructor ← m.eval scope cls
    if constructor.isCallable then m.call constructor (← m.elements scope (operands.drop 1))
    else .raise (.notConstructor ((← Operand.content cls).ident?.getD "None"))

/-! ## Paths -/

/-- A key as the string of its name; other operands stay as they are. -/
def keyToString (operand : Value) : Action Value := do
  match operand with
  | .node (.leaf .key name mark) => return .node (.leaf .string name mark)
  | .node n => return .node n
  | v =>
    if ← Operand.isA (.leaf .key) v then
      let content ← Operand.content v
      let _ ← Operand.line v
      return .node (.leaf .string (← Action.compute (·.plain content)) default)
    else return v

/-- All keys among operands as strings. -/
def keysToStrings : List Value → Action (List Value)
  | [] => return []
  | operand :: rest => do
    let here ← keyToString operand
    return here :: (← keysToStrings rest)

/-- Evaluates the segments of a path. -/
def evalPath (m : Machine) (scope : Value) (path : List Value) : Action (List Value) := do
  m.evalAll scope (← keysToStrings path)

/-- Reads a path of properties. -/
def runGetPath (m : Machine) (scope : Value) (operands : List Value) : Action Value := do
  match operand operands 0 with
  | .nil => .raise (.missingOperand "aget requires an object")
  | target =>
    let v ← m.eval scope target
    Property.getPath v (← evalPath m scope (operands.drop 1))

/-- Writes a path of properties and gives the value it starts from. The value to write is evaluated
before the path. -/
def runSetPath (m : Machine) (scope : Value) (operands : List Value) : Action Value := do
  let missing := .raise (.missingOperand "aset requires an object, a path and a value")
  match operands with
  | .nil :: _ => missing
  | target :: first :: second :: others =>
    let rest := first :: second :: others
    let v ← m.eval scope target
    let value ← m.eval scope (rest.getLastD .nil)
    let path ← evalPath m scope rest.dropLast
    let _ ← Property.setPath v path value
    return v
  | _ => missing

/-! ## Chains -/

/-- The name and the operands of a step that is a call, if its head is a name. -/
def callParts? (step : Value) : Action (Option (Value × List Value)) := do
  let content ← Operand.content step
  if ← Action.truthy content then
    let head ← Action.subscript content (.int 0)
    if ← Operand.isA (.leaf .identifier) head then
      return some (head, (← Action.elements content).drop 1)
    else return none
  else return none

/-- The name and the operands of a step in a chain. -/
def stepParts (step : Value) : Action (Value × List Value) := do
  let kind ← Operand.kind step
  let parts ←
    if kind.isKind (.group .call) then callParts? step
    else if kind.isKind (.leaf .identifier) then pure (some (step, []))
    else pure none
  match parts with
  | some parts => return parts
  | none =>
    let (kind, line) ← Operand.described step
    .raise (.badStep kind line)

/-- The error for a step that names no function. The name itself is its first frame. -/
def notFunction {α : Type} (node name : Value) : Action α := do
  let text ← Action.compute (·.plain name)
  Action.framed (← Operand.frame node) (.raise (.notFunction text))

/-- Passes a value through the methods of one value after the other. -/
def threadThrough (m : Machine) (scope : Value) : Value → List Value → Action Value
  | v, [] => return v
  | v, step :: rest => do
    let (node, operands) ← stepParts step
    let name ← Operand.content node
    let member ← Property.get v name
    if !member.isCallable then notFunction node name
    else
      let result ←
        if member.isLanguageFunction then m.invoke scope member operands
        else do m.call member (← m.elements scope operands)
      threadThrough m scope result rest

/-- Passes a value through functions of the scope, each of which takes it as first argument. -/
def doThrough (m : Machine) (scope : Value) : Value → List Value → Action Value
  | v, [] => return v
  | v, step :: rest => do
    let (node, operands) ← stepParts step
    let name ← Operand.content node
    if !(← m.lookup scope name).isCallable then notFunction node name
    else
      let line ← Operand.line step
      let result ← m.apply scope node (.node (.host v line 0) :: operands) line
      doThrough m scope result rest

/-- A chain of methods. -/
def runThread (m : Machine) (scope : Value) (operands : List Value) : Action Value := do
  match operand operands 0 with
  | .nil => .raise (.missingOperand "thread requires an initial value")
  | initial => threadThrough m scope (← m.eval scope initial) (operands.drop 1)

/-- A chain of functions. -/
def runDoto (m : Machine) (scope : Value) (operands : List Value) : Action Value := do
  match operand operands 0 with
  | .nil => .raise (.missingOperand "doto requires an initial value")
  | initial => doThrough m scope (← m.eval scope initial) (operands.drop 1)

/-! ## Operators -/

/-- Applies an operator to what has been collected and the next operand, from the left. -/
def foldOperands (m : Machine) (scope : Value) (op : Operator) :
    Value → List Value → Action Value
  | acc, [] => return acc
  | acc, operand :: rest => do
    let v ← m.eval scope operand
    foldOperands m scope op (← op.apply acc v) rest

/-- Folds an operator over its operands; without operands the value is void. -/
def runOperator (m : Machine) (scope : Value) (op : Operator) : List Value → Action Value
  | [] => return .undefined
  | first :: rest => do foldOperands m scope op (← m.eval scope first) rest

/-- The opposite of the truth of the operand. -/
def runNegate (m : Machine) (scope : Value) (operands : List Value) : Action Value := do
  if 1 < operands.length then .raise (.missingOperand "not requires exactly 1 argument")
  else return .bool (!(← Action.truthy (← m.eval scope (operand operands 0))))

/-- Runs a form from a scope. -/
def run (m : Machine) (form : Form) (scope : Value) (operands : List Value) : Action Value := do
  form.signature.check (operands.length + 1)
  match form with
  | .comment => return .undefined
  | .define => runDefine m scope operands
  | .assign => runAssign m scope operands
  | .lambda => makeClosure scope operands
  | .defineFunction => runDefineFunction m scope operands
  | .adapt => runAdapt m scope operands
  | .print => runPrint m scope operands
  | .choose => runChoose m scope operands
  | .cond => runCond m scope operands
  | .object => runObject m scope operands
  | .array => runArray m scope operands
  | .construct => runConstruct m scope operands
  | .getPath => runGetPath m scope operands
  | .setPath => runSetPath m scope operands
  | .thread => runThread m scope operands
  | .doto => runDoto m scope operands
  | .operator op => runOperator m scope op operands
  | .negate => runNegate m scope operands

end Lisplet.Form
