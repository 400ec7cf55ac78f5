import Lisplet.Syntax.Node
import Lisplet.Double.Basic

/-!
# Values

The values a script works on: void and nil, booleans, integers of any size, doubles, texts, bytes,
lists, tuples, sets and dictionaries, syntax nodes, functions of several kinds, objects and
functions of the host, and scopes. What can change is kept in the store and a value only refers to
it; what cannot change is part of the value. A value whose identity a script can test carries a
number or a reference for it.
-/

namespace Lisplet

/-! ## References into the store -/

/-- A list in the store. -/
structure ListRef where
  index : Nat
  deriving DecidableEq, Ord, Repr, Inhabited

/-- A dictionary in the store. -/
structure DictRef where
  index : Nat
  deriving DecidableEq, Ord, Repr, Inhabited

/-- A scope in the store. -/
structure ScopeRef where
  index : Nat
  deriving DecidableEq, Ord, Repr, Inhabited

/-- A closure in the store. -/
structure ClosureRef where
  index : Nat
  deriving DecidableEq, Ord, Repr, Inhabited

/-- What a one-shot iterator gives. -/
inductive IteratorShape where
  /-- The elements of a list. -/
  | elements
  /-- What is made from each element of a sequence. -/
  | generated
  deriving DecidableEq, Ord, Repr, Inhabited

/-- A one-shot iterator in the store. -/
structure IteratorRef where
  shape : IteratorShape
  index : Nat
  deriving DecidableEq, Ord, Repr, Inhabited

/-- The classes of host objects. Their objects are plain: an object has a table of attributes under
names, and reading, writing, comparing or showing it runs no code of the host. -/
inductive ObjectClass where
  | plain | point
  deriving DecidableEq, Ord, Repr

/-- A host object in the store. -/
structure ObjectRef where
  cls : ObjectClass
  index : Nat
  deriving DecidableEq, Ord, Repr

/-- What a host function looks like from outside. -/
inductive FunctionShape where
  /-- A function. -/
  | plain
  /-- A class, which is called to make an object. -/
  | cls
  /-- A sequence method together with the sequence it was read from. -/
  | bound
  deriving DecidableEq, Ord, Repr

/-- A host function in the store. -/
structure FunctionRef where
  shape : FunctionShape
  index : Nat
  deriving DecidableEq, Ord, Repr

/-! ## Built-in operations -/

/-- The binary operators. -/
inductive Operator where
  | add | sub | mul | div | equal | notEqual | less | greater | atMost | atLeast
  | both | either | coalesce
  deriving DecidableEq, Ord, Repr

/-- The forms of the core scope: they receive their operands unevaluated. -/
inductive Form where
  | comment | define | assign | lambda | defineFunction | adapt | print | choose | cond | object
  | array | construct | getPath | setPath | thread | doto
  | operator (op : Operator)
  | negate
  deriving DecidableEq, Ord, Repr

/-- The methods of lists and tuples that call back into the script or build new lists. -/
inductive SequenceMethod where
  | map | filter | reduce | forEach | find | some | every | slice | concat | join | includes
  | indexOf | push
  deriving DecidableEq, Ord, Repr

/-- The methods of texts that scripts may use. -/
inductive TextMethod where
  | capitalize | casefold | center | count | endswith | find | index | isalnum | isalpha | isdigit
  | islower | isspace | isupper | join | ljust | lower | lstrip | partition | removePrefix
  | removeSuffix | replace | rfind | rjust | rpartition | rsplit | rstrip | split | splitlines
  | startswith | strip | swapcase | title | upper | zfill
  deriving DecidableEq, Ord, Repr

/-- The methods of lists that change or search them. -/
inductive ListMethod where
  | append | clear | copy | count | extend | index | insert | pop | remove | reverse | sort
  deriving DecidableEq, Ord, Repr

/-- The methods of tuples. -/
inductive TupleMethod where
  | count | index
  deriving DecidableEq, Ord, Repr

/-- The methods of integers and doubles. -/
inductive NumberMethod where
  | integerRatio | bitCount | bitLength | conjugate | hex | isInteger | fromHex | fromBytes
  | toBytes
  deriving DecidableEq, Ord, Repr

/-- The methods of bytes. -/
inductive BytesMethod where
  | capitalize | center | count | decode | endswith | expandtabs | find | fromhex | hex | index
  | isalnum | isalpha | isascii | isdigit | islower | isspace | istitle | isupper | join | ljust
  | lower | lstrip | maketrans | partition | removePrefix | removeSuffix | replace | rfind | rindex
  | rjust | rpartition | rsplit | rstrip | split | splitlines | startswith | strip | swapcase
  | title | translate | upper | zfill
  deriving DecidableEq, Ord, Repr

/-- The methods of sets. -/
inductive SetMethod where
  | copy | difference | intersection | isDisjoint | isSubset | isSuperset | symmetricDifference
  | union
  deriving DecidableEq, Ord, Repr

/-- The methods of scopes. -/
inductive ScopeMethod where
  | isDefined | isReadOnly | getVar | get | set | writeVars
  deriving DecidableEq, Ord, Repr

/-- A method that remembers the value it was read from. -/
inductive Method where
  | text (m : TextMethod)
  | list (m : ListMethod)
  | tuple (m : TupleMethod)
  | number (m : NumberMethod)
  | bytes (m : BytesMethod)
  | set (m : SetMethod)
  | scope (m : ScopeMethod)
  /-- Wraps a value as a node. -/
  | wrap
  /-- Calls a closure or a form with a scope and nodes. -/
  | invoke
  /-- A function of a class, which takes the object it was read from as its first argument. -/
  | function (ref : FunctionRef)
  deriving DecidableEq, Ord, Repr

/-! ## Values -/

/-- A value of the language. -/
inductive Value where
  | undefined
  | nil
  | bool (b : Bool)
  | int (i : Int)
  | float (d : Double)
  | str (s : String)
  /-- A kind of node; it acts as the text of its name. -/
  | kind (k : NodeKind)
  /-- Bytes. Only some of at most one byte share the number zero. -/
  | bytes (id : Nat) (data : List UInt8)
  | list (ref : ListRef)
  | tuple (id : Nat) (items : List Value)
  /-- A set that cannot change; no two of its elements are the same key. -/
  | set (id : Nat) (items : List Value)
  | dict (ref : DictRef)
  | node (n : Node Value)
  | closure (ref : ClosureRef)
  | form (f : Form)
  | function (ref : FunctionRef)
  | method (receiver : Value) (m : Method) (id : Nat)
  | object (ref : ObjectRef)
  | iterator (ref : IteratorRef)
  | scope (ref : ScopeRef)
  deriving Repr, Inhabited

/-- A syntax tree that the evaluator works on. -/
abbrev Expr := Node Value

namespace Value

/-- The empty tuple, of which there is only one. -/
def emptyTuple : Value := .tuple 0 []

/-- Void or nil. -/
def isNullish : Value → Bool
  | .undefined | .nil => true
  | _ => false

/-- The text of a text or of a kind of node, which acts as one. -/
def text? : Value → Option String
  | .str s => some s
  | .kind k => some k.name
  | _ => none

/-- A closure or a form: a function that receives its operands unevaluated. -/
def isLanguageFunction : Value → Bool
  | .closure _ | .form _ => true
  | _ => false

/-- A value that can be called. -/
def isCallable : Value → Bool
  | .closure _ | .form _ | .function _ | .method _ _ _ => true
  | _ => false

/-- The integer that a boolean or an integer counts as. -/
def index? : Value → Option Int
  | .int i => some i
  | .bool b => some (if b then 1 else 0)
  | _ => none

/-- The value is this kind of node. -/
def isKind (k : NodeKind) : Value → Bool
  | .kind j => j == k
  | _ => false

/-- The name of a value's type, as error messages give it. -/
def typeName : Value → String
  | .undefined => "UndefinedType"
  | .nil => "NoneType"
  | .bool _ => "bool"
  | .int _ => "int"
  | .float _ => "float"
  | .str _ => "str"
  | .kind _ => "NodeType"
  | .bytes _ _ => "bytes"
  | .list _ => "list"
  | .tuple _ _ => "tuple"
  | .set _ _ => "frozenset"
  | .dict _ => "dict"
  | .node _ => "Node"
  | .closure _ => "Closure"
  | .form _ => "SpecialForm"
  | .function ⟨.plain, _⟩ => "function"
  | .function ⟨.cls, _⟩ => "type"
  | .function ⟨.bound, _⟩ => "functools.partial"
  | .method _ (.text _) _ | .method _ (.list _) _ | .method _ (.tuple _) _
  | .method _ (.number _) _ | .method _ (.bytes _) _ | .method _ (.set _) _ =>
    "builtin_function_or_method"
  | .method _ _ _ => "method"
  | .object ⟨.plain, _⟩ => "Obj"
  | .object ⟨.point, _⟩ => "Point"
  | .iterator ⟨.elements, _⟩ => "list_iterator"
  | .iterator ⟨.generated, _⟩ => "generator"
  | .scope _ => "Scope"

/-- The name of a value's type without the name of the library it stands in. -/
def shortTypeName : Value → String
  | .function ⟨.bound, _⟩ => "partial"
  | v => v.typeName

/-- The two values are the same object. Numbers and texts have no identity of their own apart from
NaNs, which carry a tag. -/
def same : Value → Value → Bool
  | .undefined, .undefined => true
  | .nil, .nil => true
  | .bool a, .bool b => a == b
  | .int a, .int b => a == b
  | .float a, .float b => a == b
  | .str a, .str b => a == b
  | .kind a, .kind b => a == b
  | .bytes a x, .bytes b y => a == b && x == y
  | .list a, .list b => a == b
  | .tuple a _, .tuple b _ => a == b
  | .set a _, .set b _ => a == b
  | .dict a, .dict b => a == b
  | .node a, .node b => a.serial == b.serial
  | .closure a, .closure b => a == b
  | .form a, .form b => a == b
  | .function a, .function b => a == b
  | .method _ _ a, .method _ _ b => a == b
  | .object a, .object b => a == b
  | .iterator a, .iterator b => a == b
  | .scope a, .scope b => a == b
  | _, _ => false

/-- Whether the values are the same by value: numbers by their position on the number line, texts by
their characters, and everything else by identity. A boolean is no number here. -/
def strictEquals (a b : Value) : Bool :=
  match a, b with
  | .bool x, .bool y => x == y
  | .bool _, _ => false
  | _, .bool _ => false
  | .int x, .int y => x == y
  | .int x, .float y => y.extent? == some (Extent.ofInt x)
  | .float x, .int y => x.extent? == some (Extent.ofInt y)
  | .float x, .float y => x.extent?.isSome && x.extent? == y.extent?
  | x, y =>
    match x.text?, y.text? with
    | some s, some t => s == t
    | _, _ => same x y

end Value

namespace Form

/-- The name of an operator in the core scope. -/
def operatorName : Operator → String
  | .add => "+"
  | .sub => "-"
  | .mul => "*"
  | .div => "/"
  | .equal => "="
  | .notEqual => "not="
  | .less => "<"
  | .greater => ">"
  | .atMost => "<="
  | .atLeast => ">="
  | .both => "and"
  | .either => "or"
  | .coalesce => "??"

/-- The name of a form in the core scope. -/
def name : Form → String
  | .comment => "##"
  | .define => "def"
  | .assign => "set"
  | .lambda => "fn"
  | .defineFunction => "defn"
  | .adapt => "jsfn"
  | .print => "print"
  | .choose => "if"
  | .cond => "cond"
  | .object => "object"
  | .array => "array"
  | .construct => "new"
  | .getPath => "aget"
  | .setPath => "aset"
  | .thread => "thread"
  | .doto => "doto"
  | .operator op => operatorName op
  | .negate => "not"

/-- All forms, in the order in which the core scope holds them. -/
def all : List Form :=
  [.comment, .define, .assign, .lambda, .defineFunction, .adapt, .print, .choose, .cond, .object,
   .array, .construct, .getPath, .setPath, .thread, .doto, .operator .add, .operator .sub,
   .operator .mul, .operator .div, .operator .equal, .operator .notEqual, .operator .less,
   .operator .greater, .operator .atMost, .operator .atLeast, .operator .both, .operator .either,
   .operator .coalesce, .negate]

/-- The form that has a name. -/
def ofName? (name : String) : Option Form := all.find? (·.name == name)

end Form

/-! ## Names in traces -/

mutual

/-- The text that names a value in a trace: a text itself, or the first one inside a tuple of
nodes. -/
def Value.ident? : Value → Option String
  | .str s => some s
  | .kind k => some k.name
  | .tuple _ items => firstIdent items
  | _ => none

/-- The first text that is not empty among the nodes of a list of values. -/
def firstIdent : List Value → Option String
  | [] => none
  | .node n :: rest =>
    match exprIdent? n with
    | some "" | none => firstIdent rest
    | some s => some s
  | _ :: rest => firstIdent rest

/-- The text that names a node in a trace: the first text inside it that is not empty, searched
depth first. -/
def exprIdent? : Node Value → Option String
  | .leaf _ text _ => some text
  | .group _ items _ => firstExprIdent items
  | .host value _ _ => Value.ident? value

/-- The first text that is not empty among nodes. -/
def firstExprIdent : List (Node Value) → Option String
  | [] => none
  | n :: rest =>
    match exprIdent? n with
    | some "" | none => firstExprIdent rest
    | some s => some s

end

end Lisplet
