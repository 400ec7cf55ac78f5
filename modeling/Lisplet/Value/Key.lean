import Lisplet.Value.Basic

/-!
# Dictionary keys

Two values are the same dictionary key exactly when they have the same `Key`. Numbers are keys by
their position on the number line, so that `true`, `1` and `1.0` are one key; texts, bytes, tuples,
sets and nodes are keys by their content, and all else by identity. A key is a list of atoms: a
tuple, a set or a node writes its size before its parts, so that different values never share a list
of atoms. The parts of a set stand in a fixed order, since two sets with the same elements are one
key. Lists and dictionaries can change and are no keys.
-/

namespace Lisplet

/-- A piece of a dictionary key. -/
inductive KeyAtom where
  | undefined | nil
  | int (i : Int)
  /-- A number that is no integer, in units. -/
  | fraction (neg : Bool) (units : Nat)
  | inf (neg : Bool)
  | nan (tag : Nat)
  | text (s : String)
  | bytes (data : List UInt8)
  /-- A tuple and its size; its items follow. -/
  | tuple (size : Nat)
  /-- A set and its size; its elements follow. -/
  | set (size : Nat)
  /-- A node, its kind and its line; its content follows. -/
  | node (kind : NodeKind) (line : Int)
  | closure (ref : ClosureRef)
  | form (f : Form)
  | function (ref : FunctionRef)
  /-- A bound method; the type of its receiver and the receiver follow. -/
  | method (m : Method)
  /-- A value that only its identity tells apart. -/
  | list (ref : ListRef)
  | dict (ref : DictRef)
  | object (ref : ObjectRef)
  | iterator (ref : IteratorRef)
  | scope (ref : ScopeRef)
  deriving DecidableEq, Ord, Repr

/-- What identifies a dictionary entry. -/
abbrev Key := List KeyAtom

/-- The key of a text. -/
def Key.ofText (s : String) : Key := [.text s]

/-- Keys one after the other in a fixed order. -/
def Key.ofUnordered (keys : List Key) : Key :=
  (keys.mergeSort fun a b => (compare a b).isLE).flatten

namespace Value

/-- The key of a double. -/
def doubleKey (d : Double) : KeyAtom :=
  match d with
  | .nan tag => .nan tag
  | .inf neg => .inf neg
  | .fin neg units =>
    match d.toInt? with
    | some i => .int i
    | none => .fraction neg units

/-- What identifies the receiver of a bound method: containers by identity. -/
def receiverKey : Value → Key
  | .undefined => [.undefined]
  | .nil => [.nil]
  | .bool b => [.int (if b then 1 else 0)]
  | .int i => [.int i]
  | .float d => [doubleKey d]
  | .str s => [.text s]
  | .kind k => [.text k.name]
  | .bytes id data => [.tuple id, .bytes data]
  | .list r => [.list r]
  | .tuple id _ => [.tuple id]
  | .set id _ => [.set id]
  | .dict r => [.dict r]
  | .node n => [.node n.kind n.serial]
  | .closure r => [.closure r]
  | .form f => [.form f]
  | .function r => [.function r]
  | .method receiver m _ => .method m :: .text receiver.typeName :: receiverKey receiver
  | .object r => [.object r]
  | .iterator r => [.iterator r]
  | .scope r => [.scope r]

mutual

/-- The key of a value, or the name of the type that cannot be a key. -/
def key : Value → Except String Key
  | .undefined => .ok [.undefined]
  | .nil => .ok [.nil]
  | .bool b => .ok [.int (if b then 1 else 0)]
  | .int i => .ok [.int i]
  | .float d => .ok [doubleKey d]
  | .str s => .ok [.text s]
  | .kind k => .ok [.text k.name]
  | .bytes _ data => .ok [.bytes data]
  | .list _ => .error "list"
  | .tuple _ items => do return .tuple items.length :: (← keys items).flatten
  | .set _ items => do return .set items.length :: Key.ofUnordered (← keys items)
  | .dict _ => .error "dict"
  | .node n => exprKey n
  | .closure r => .ok [.closure r]
  | .form f => .ok [.form f]
  | .function r => .ok [.function r]
  | .method receiver m _ =>
    .ok (.method m :: .text receiver.typeName :: receiverKey receiver)
  | .object r => .ok [.object r]
  | .iterator r => .ok [.iterator r]
  | .scope r => .ok [.scope r]

/-- The keys of values. -/
def keys : List Value → Except String (List Key)
  | [] => .ok []
  | v :: rest => do return (← key v) :: (← keys rest)

/-- The key of a node. -/
def exprKey : Node Value → Except String Key
  | .leaf k text mark => .ok [.node (.leaf k) mark.line, .text text]
  | .group k items mark => do
    return .node (.group k) mark.line :: .tuple items.length :: (← exprKeys items)
  | .host value line _ => do return .node .host 0 :: (← key value) ++ (← key line)

/-- The keys of nodes one after the other. -/
def exprKeys : List (Node Value) → Except String Key
  | [] => .ok []
  | n :: rest => do return (← exprKey n) ++ (← exprKeys rest)

end

end Value

/-! ## Dictionaries -/

/-- An entry of a dictionary. -/
structure Entry where
  hash : Key
  key : Value
  value : Value
  deriving Repr

/-- A dictionary: entries in the order in which their keys were first inserted. -/
structure Dict where
  entries : List Entry
  deriving Repr, Inhabited

namespace Dict

/-- The dictionary without entries. -/
def empty : Dict := ⟨[]⟩

/-- The number of entries. -/
def size (d : Dict) : Nat := d.entries.length

/-- The value under a key. -/
def get? (d : Dict) (hash : Key) : Option Value :=
  (d.entries.find? (·.hash == hash)).map (·.value)

/-- There is an entry under the key. -/
def contains (d : Dict) (hash : Key) : Bool := (d.get? hash).isSome

/-- Replaces the value of the entry under a key, or adds an entry at the end. A replaced entry
keeps its place and the key it was inserted with. -/
def insertEntry (e : Entry) : List Entry → List Entry
  | [] => [e]
  | f :: rest =>
    if f.hash == e.hash then { f with value := e.value } :: rest else f :: insertEntry e rest

/-- Puts a value under a key. -/
def insert (d : Dict) (hash : Key) (key value : Value) : Dict :=
  ⟨insertEntry ⟨hash, key, value⟩ d.entries⟩

/-- Puts a value under a text. -/
def insertText (d : Dict) (name : String) (value : Value) : Dict :=
  d.insert (Key.ofText name) (.str name) value

/-- The value under a text. -/
def getText? (d : Dict) (name : String) : Option Value := d.get? (Key.ofText name)

/-- Puts all entries of the second dictionary into the first. -/
def update (d other : Dict) : Dict :=
  other.entries.foldl (fun acc e => acc.insert e.hash e.key e.value) d

/-- A dictionary with text keys. -/
def ofTexts (items : List (String × Value)) : Dict :=
  items.foldl (fun d item => d.insertText item.1 item.2) empty

/-- The keys in order. -/
def keys (d : Dict) : List Value := d.entries.map (·.key)

end Dict

end Lisplet
