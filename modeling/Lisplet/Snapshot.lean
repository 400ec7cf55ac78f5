import Lisplet.Syntax.Node

/-!
# Snapshots

A snapshot is a finite picture of a value at one moment, which later changes of the store do not
touch. What is part of itself is cut off and replaced by the number of steps up to the enclosing
picture it repeats.
-/

namespace Lisplet

/-- A picture of a value. -/
inductive Snapshot where
  | undefined
  | nil
  | bool (b : Bool)
  | int (i : Int)
  /-- A double, by its text. -/
  | float (text : String)
  | str (s : String)
  | list (items : List Snapshot)
  | tuple (items : List Snapshot)
  | dict (entries : List (Snapshot × Snapshot))
  /-- A node: its kind, its content and its line. -/
  | node (tree : Node Snapshot)
  | kind (k : NodeKind)
  /-- A closure, by its text. -/
  | closure (text : String)
  /-- A form, by its text. -/
  | form (text : String)
  /-- A scope, by its text. -/
  | scope (text : String)
  /-- A host object: its class and its attributes. -/
  | object (cls : String) (attributes : List (String × Snapshot))
  /-- Any other value that can be called. -/
  | callable
  /-- Any other value, by its type. -/
  | other (typeName : String)
  /-- The picture so many steps up. -/
  | cycle (up : Nat)
  deriving Inhabited

end Lisplet
