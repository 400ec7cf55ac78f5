import Lisplet.Property.Guard
import Lisplet.Property.Elements
import Lisplet.Value.Names

/-!
# Properties

Reading and writing a property of a value. Dictionaries give their entries, sequences their
elements, their length and their methods, and other values their attributes. A missing property is
void. A property is written into a dictionary, into a list at a position that exists or at its end,
or as an attribute of a value that takes attributes.
-/

namespace Lisplet.Property

/-! ## Attributes -/

/-- What a method remembers. A method that belongs to the type and not to the value it is read from
remembers a fixed value of that type. -/
def ownerOf (v : Value) : Method → Value
  | .number .fromBytes =>
    match v with
    | .bool _ => .bool false
    | _ => .int 0
  | .number .fromHex => .float .zero
  | .bytes .fromhex | .bytes .maketrans => .bytes 0 []
  | .wrap => .nil
  | _ => v

/-- A method as it is read from a value. Only what makes tables of bytes is there once for all. -/
def readMethod (v : Value) (m : Method) : Action Value :=
  match m with
  | .bytes .maketrans => return .method (ownerOf v m) m 0
  | m => Action.newMethod (ownerOf v m) m

/-- A method of a value that has a name among those of its type. -/
def methodNamed {μ : Type} (v : Value) (method : Option μ) (kind : μ → Method) :
    Action (Option Value) :=
  match method with
  | some m => some <$> readMethod v (kind m)
  | none => return none

/-- What a form does, as a function. -/
def formBody (f : Form) : Action Value := do
  match ← Action.gets (·.formBodies.lookup f) with
  | some body => return body
  | none => Action.theFunction (.formBody f)

/-- The function of a bound sequence method. -/
def boundFunction? (r : FunctionRef) : Action (Option Value) := do
  match ← Action.gets (·.function? r) with
  | some ⟨.bound m _ _, _⟩ => some <$> Action.theFunction (.unbound m)
  | _ => return none

/-- A function of its class as a method of an object. -/
def classMethod? (r : ObjectRef) (name : String) : Action (Option Value) := do
  match r.cls, (← Action.gets (·.pointClass)).get? name with
  | .point, some (.function ref) => some <$> Action.newMethod (.object r) (.function ref)
  | _, _ => return none

/-- A method of a value. -/
def method? (v : Value) (name : String) : Action (Option Value) :=
  match v with
  | .bool _ | .int _ => methodNamed v (NumberMethod.ofIntName? name) .number
  | .float _ => methodNamed v (NumberMethod.ofDoubleName? name) .number
  | .str _ | .kind _ => methodNamed v (TextMethod.ofName? name) .text
  | .bytes _ _ => methodNamed v (BytesMethod.ofName? name) .bytes
  | .list _ => methodNamed v (ListMethod.ofName? name) .list
  | .tuple _ _ => methodNamed v (TupleMethod.ofName? name) .tuple
  | .set _ _ => methodNamed v (SetMethod.ofName? name) .set
  | .scope _ => methodNamed v (ScopeMethod.ofName? name) .scope
  | .node _ => if name == "wrap" then some <$> readMethod v .wrap else return none
  | .closure _ => if name == "invoke" then some <$> Action.newMethod v .invoke else return none
  | .form f =>
    match name with
    | "fn" => some <$> formBody f
    | "invoke" => some <$> Action.newMethod v .invoke
    | _ => return none
  | .function r => if name == "func" then boundFunction? r else return none
  | .object r => classMethod? r name
  | _ => return none

/-- An attribute of a value: what is in a slot, or a method. -/
def attribute? (v : Value) (name : String) : Action (Option Value) := do
  match ← Action.gets (·.slot? v name) with
  | some value => return some value
  | none => method? v name

/-- An attribute that a value must have. -/
def member (v : Value) (name : String) : Action Value := do
  match ← attribute? v name with
  | some value => return value
  | none => .raise (Store.missingAttribute v name)

/-! ## Reading -/

/-- A value has an attribute, which need not be one that scripts may use. -/
def hasAttribute (v : Value) (name : String) : Action Bool := do
  if commonAttributes.contains name || v.hiddenAttributes.contains name then return true
  else return (← attribute? v name).isSome

/-- A method of a text. Of its attributes only the methods on the list may be used. -/
def textMethod (text key : Value) : Action Value := do
  match key.text? with
  | none => return .undefined
  | some name =>
    if (TextMethod.ofName? name).isSome then member text name
    else if ← hasAttribute text name then .raise (.forbidden name)
    else return .undefined

/-- A sequence method bound to a sequence, if the key names one. -/
def sequenceMethod? (sequence key : Value) : Action (Option Value) := do
  let _ ← Action.keyOf key
  match key.text?.bind SequenceMethod.ofName? with
  | some m => do
    let first ← Action.newTuple [sequence]
    let named ← Action.make (·.addDict .empty)
    some <$> Action.newFunction (.bound m first named)
  | none => return none

/-- The attribute that a key names; a key that is no text names none. -/
def attributeOf (v key : Value) : Action Value :=
  match key.text? with
  | none => return .undefined
  | some name => do return (← attribute? v name).getD .undefined

/-- The key is the name of the length of a sequence. -/
def isLength (key : Value) : Bool := key.text? == some "length"

/-- An element, the length or a method of a list or tuple. -/
def ofSequence (v : Value) (items : Array Value) (key : Value) : Action Value := do
  match ← Action.ofExcept (index? key) with
  | some i => return ((place? items.size i).bind (items[·]?)).getD .undefined
  | none =>
    if isLength key then return .int items.size
    else
      match ← sequenceMethod? v key with
      | some method => return method
      | none => attributeOf v key

/-- A character, the length or a method of a text. -/
def ofText (v : Value) (text : String) (key : Value) : Action Value := do
  match ← Action.ofExcept (index? key) with
  | some i =>
    let cs := text.toList
    return ((place? cs.length i).bind (cs[·]?)).elim .undefined fun c => .str c.toString
  | none => if isLength key then return .int text.length else textMethod v key

/-- Reads a property. -/
def get (v key : Value) : Action Value := do
  guardKey key
  match v with
  | .undefined | .nil =>
    .raise (.readOfNothing (← Action.compute (·.shown key)) (← Action.compute (·.shown v)))
  | .dict r =>
    let hash ← Action.keyOf key
    return ((← Action.gets (·.dict r)).get? hash).getD .undefined
  | .list r => ofSequence v (← Action.gets (·.list r)) key
  | .tuple _ items => ofSequence v items.toArray key
  | .str text => ofText v text key
  | .kind k => ofText v k.name key
  | v => attributeOf v key

/-! ## Writing -/

/-- The error for an attribute that exists and cannot be written. -/
def readOnlyAttribute (v : Value) (name : String) : Fault :=
  let part := ["real", "imag", "numerator", "denominator"].contains name
  let owner := match v with
    | .bool _ | .int _ => some "int"
    | .float _ => some "float"
    | _ => none
  .plain .missingAttribute <|
    match part, owner with
    | true, some owner => "attribute '" ++ name ++ "' of '" ++ owner ++ "' objects is not writable"
    | _, _ => "'" ++ v.typeName ++ "' object attribute '" ++ name ++ "' is read-only"

/-- The error for a value that does not take this attribute. -/
def refusal (v : Value) (name : String) : Action Unit := do
  if ← hasAttribute v name then .raise (readOnlyAttribute v name)
  else .raise (.noAttribute v.typeName name)

/-- Writes a slot of a closure. -/
def setClosureAttribute (r : ClosureRef) (c : Closure) (name : String) (value : Value) :
    Action Unit :=
  match name with
  | "params" => Action.update (·.setClosure r { c with params := value })
  | "body" => Action.update (·.setClosure r { c with body := value })
  | "scope" => Action.update (·.setClosure r { c with scope := value })
  | name => refusal (.closure r) name

/-- Writes a slot of a scope. -/
def setScopeAttribute (r : ScopeRef) (name : String) (value : Value) : Action Unit := do
  let scope ← Action.gets (·.scope r)
  match name with
  | "vars" => Action.update (·.setScope r { scope with vars := value })
  | "read_only" => Action.update (·.setScope r { scope with readOnly := value })
  | "parent" => Action.update (·.setScope r { scope with parent := value })
  | name => refusal (.scope r) name

/-- Gives a kind of node an attribute. Its name and its constant stay. -/
def setKindAttribute (k : NodeKind) (name : String) (value : Value) : Action Unit :=
  if name == "name" || name == "value" then
    .raise (.plain .missingAttribute
      ("<enum 'NodeType'> cannot set attribute " ++ Text.quoted name))
  else
    Action.update fun s =>
      { s with kindAttributes := (k, (s.kindAttributesOf k).set name value) :: s.kindAttributes }

/-- Writes an attribute of a value. -/
def setAttribute (v : Value) (name : String) (value : Value) : Action Unit := do
  match v with
  | .object r =>
    let attrs ← Action.gets (·.object r)
    Action.update (·.setObject r (attrs.set name value))
  | .function r =>
    if r.shape == .bound && ["func", "args", "keywords"].contains name then
      .raise (.plain .missingAttribute "readonly attribute")
    else Action.update (·.setFunctionAttribute r name value)
  | .closure r =>
    match ← Action.gets (·.closure? r) with
    | some c => setClosureAttribute r c name value
    | none => refusal v name
  | .form f =>
    match name with
    | "name" => Action.update fun s => { s with formNames := (f, value) :: s.formNames }
    | "fn" => Action.update fun s => { s with formBodies := (f, value) :: s.formBodies }
    | name => refusal v name
  | .scope r => setScopeAttribute r name value
  | .node _ => .raise (.plain .frozenInstance ("cannot assign to field " ++ Text.quoted name))
  | .kind k => setKindAttribute k name value
  | .method _ _ _ => .raise (.noAttribute v.typeName name)
  | v => refusal v name

/-- Writes an element of a list: at a position that exists, which may count from the end, or right
after the last one. -/
def setElement (r : ListRef) (i : Int) (value : Value) : Action Unit := do
  let items ← Action.gets (·.list r)
  let bound : Int := Nat.pow 2 63
  if i == items.size then Action.update (·.setList r (items.push value))
  else if bound ≤ i || i < -bound then
    .raise (.plain .index "cannot fit 'int' into an index-sized integer")
  else
    match placeFromEnd? items.size i with
    | some n => Action.update (·.setList r (items.setIfInBounds n value))
    | none => .raise .assignmentOutOfRange

/-- Writes the attribute that a key names by its text. -/
def setNamed (v key value : Value) : Action Unit := do
  setAttribute v (← Action.compute (·.plain key)) value

/-- Writes a property. -/
def set (v key value : Value) : Action Unit := do
  guardKey key
  match v with
  | .undefined | .nil =>
    .raise (.writeOfNothing (← Action.compute (·.shown key)) (← Action.compute (·.shown v)))
  | .dict r =>
    let hash ← Action.keyOf key
    let d ← Action.gets (·.dict r)
    Action.update (·.setDict r (d.insert hash key value))
  | .list r =>
    match ← Action.ofExcept (index? key) with
    | some i => setElement r i value
    | none => setNamed v key value
  | v => setNamed v key value

/-! ## Paths -/

/-- Reads one property after the other. -/
def getPath (v : Value) (path : List Value) : Action Value := path.foldlM get v

/-- Writes the last property of a path. All keys are checked before anything is read. -/
def setPath (v : Value) (path : List Value) (value : Value) : Action Value := do
  match path.getLast? with
  | none => .raise .emptyPath
  | some last =>
    path.forM guardKey
    let owner ← getPath v path.dropLast
    set owner last value
    return value

/-- Writes along a path that is given as a value. Its elements are gone through twice, so that an
iterator has none left when they are needed. -/
def setAlong (v path value : Value) : Action Value := do
  if !(← Action.truthy path) then .raise .emptyPath
  else
    (← Action.elements path).forM guardKey
    match ← Action.elements path with
    | [] => .raise (.plain .value "not enough values to unpack (expected at least 1, got 0)")
    | keys => setPath v keys value

/-! ## Own properties -/

/-- The entries of a sequence under the texts of their positions. -/
def ofItems (items : List Value) : Dict :=
  Dict.ofTexts (items.zipIdx.map fun (v, i) => (toString i, v))

/-- The attributes that are not private. -/
def ofAttributes (attrs : Attributes) : Dict :=
  Dict.ofTexts (attrs.filter fun a => a.1.toList.head? != some '_')

/-- The properties of a value that a spread takes over. -/
def own (v : Value) : Action Dict := do
  match v with
  | .dict r => Action.gets (·.dict r)
  | .list r => return ofItems (← Action.gets (·.list r)).toList
  | .tuple _ items => return ofItems items
  | .str text => return ofItems (charValues text)
  | .kind k => return ofItems (charValues k.name)
  | .node n =>
    return Dict.ofTexts
      [("type", .kind n.kind), ("value", contentOf n), ("line", lineOf n)]
  | .object r => return ofAttributes (← Action.gets (·.object r))
  | .function r | .method _ (.function r) _ =>
    return ofAttributes (((← Action.gets (·.function? r)).map (·.attributes)).getD [])
  | _ => return .empty

end Lisplet.Property
