/-!
# Syntax trees

A node is a leaf with its text, a bracketed group of nodes, or a value that the host passed in place
of source text. The type of such values is a parameter, so that the reader and the printer do not
depend on what a value is. Every node carries a line and a number that tells it from every other
node, since scripts can ask whether two nodes are the same object. The line of a node that was read
is the one it starts on.
-/

namespace Lisplet

/-- The kinds of leaves. -/
inductive LeafKind where
  | string | number | key | identifier | keyword | rest
  deriving DecidableEq, Ord, Repr

/-- The kinds of groups. -/
inductive GroupKind where
  | root | call | array | object
  deriving DecidableEq, Ord, Repr

/-- The kinds of nodes. -/
inductive NodeKind where
  | leaf (kind : LeafKind)
  | group (kind : GroupKind)
  | host
  deriving DecidableEq, Ord, Repr

/-- The name a script sees for a kind of node. -/
def NodeKind.name : NodeKind → String
  | .leaf .string => "string"
  | .leaf .number => "number"
  | .leaf .key => "key"
  | .leaf .identifier => "identifier"
  | .leaf .keyword => "keyword"
  | .leaf .rest => "rest"
  | .group .root => "root"
  | .group .call => "sexpression"
  | .group .array => "array"
  | .group .object => "object"
  | .host => "js"

/-- The constant that denotes a kind of node. -/
def NodeKind.constant : NodeKind → String
  | .leaf .string => "STRING"
  | .leaf .number => "NUMBER"
  | .leaf .key => "KEY"
  | .leaf .identifier => "IDENT"
  | .leaf .keyword => "KEYWORD"
  | .leaf .rest => "REST"
  | .group .root => "ROOT"
  | .group .call => "SEXPR"
  | .group .array => "ARRAY"
  | .group .object => "OBJECT"
  | .host => "JS"

/-- Where a node stands. -/
structure Mark where
  /-- The line of its first character. The host may give its own nodes any number. -/
  line : Int
  /-- A number that no other node has. The number after it names its tuple of items. -/
  id : Nat
  deriving DecidableEq, Repr, Inhabited

/-- A syntax tree with host values of type `α`. -/
inductive Node (α : Type) where
  /-- A token without structure. -/
  | leaf (kind : LeafKind) (text : String) (mark : Mark)
  /-- A bracketed group. -/
  | group (kind : GroupKind) (items : List (Node α)) (mark : Mark)
  /-- A value in place of source text. Its line is whatever the host gives for it. -/
  | host (value line : α) (serial : Nat)
  deriving Repr

namespace Node

variable {α : Type}

/-- The kind of a node. -/
def kind : Node α → NodeKind
  | .leaf k _ _ => .leaf k
  | .group k _ _ => .group k
  | .host _ _ _ => .host

/-- The number that tells the node from every other node. -/
def serial : Node α → Nat
  | .leaf _ _ m => m.id
  | .group _ _ m => m.id
  | .host _ _ serial => serial

/-- The node is a group. -/
def isComposite : Node α → Bool
  | .group _ _ _ => true
  | _ => false

end Node

end Lisplet
