import Lisplet.Store.Slots
import Lisplet.Double.Shortest
import Lisplet.Numeral

/-!
# The text of values

`Store.shown` is the form a value has inside other values and in messages, where texts stand in
quotes; `Store.plain` is the form in which it is printed by itself. A container inside itself is
shown as dots between its brackets. An integer of too many digits has no text.
-/

namespace Lisplet

/-- A container that is being shown. -/
inductive Container where
  | list (ref : ListRef)
  | tuple (id : Nat)
  | dict (ref : DictRef)
  | object (ref : ObjectRef)
  deriving DecidableEq, Repr

namespace Store

/-- The decimal text of an integer. -/
def intText (i : Int) : Except Fault String :=
  if i.natAbs < Nat.pow 10 Numeral.maxDigits then .ok (toString i)
  else .error (.plain .value
    ("Exceeds the limit (" ++ toString Numeral.maxDigits
      ++ " digits) for integer string conversion; use sys.set_int_max_str_digits() to increase "
      ++ "the limit"))

/-- Texts between brackets, separated by commas. -/
def bracketed (opening closing : String) (items : List String) : String :=
  opening ++ ", ".intercalate items ++ closing

/-- The text of a tuple; a comma follows a single item. -/
def tupleText : List String → String
  | [item] => "(" ++ item ++ ",)"
  | items => bracketed "(" ")" items

/-- The text of a scope: how many variables it has and how many of them are read-only. -/
def scopeText (s : Store) (r : ScopeRef) : Except Fault String := do
  let vars ← s.sizeOf (s.scope r).vars
  let readOnly ← s.sizeOf (s.scope r).readOnly
  return "<Scope " ++ toString vars ++ " vars (" ++ toString readOnly ++ " read-only)>"

/-- The entries of a dictionary that must be one. -/
def itemsOf (s : Store) (v : Value) : Except Fault (List Entry) :=
  match v with
  | .dict r => .ok (s.dict r).entries
  | v => .error (missingAttribute v "items")

mutual

/-- How a value is shown inside other values. The path holds the containers around it. -/
def shownIn (s : Store) : (fuel : Nat) → (path : List Container) → Value → Except Fault String
  | 0, _, _ => .ok "..."
  | fuel + 1, path, v =>
    match v with
    | .undefined => .ok "undefined"
    | .nil => .ok "None"
    | .bool b => .ok (if b then "True" else "False")
    | .int i => intText i
    | .float d => .ok d.text
    | .str t => .ok (Text.quoted t)
    | .kind k => .ok ("<NodeType." ++ k.constant ++ ": " ++ Text.quoted k.name ++ ">")
    | .bytes _ data => .ok (Text.quotedBytes data)
    | .list r =>
      if path.contains (.list r) then .ok "[...]"
      else do
        let items ← (s.list r).toList.mapM fun item => shownIn s fuel (.list r :: path) item
        return bracketed "[" "]" items
    | .tuple id items =>
      if !items.isEmpty && path.contains (.tuple id) then .ok "(...)"
      else do
        let items ← items.mapM fun item => shownIn s fuel (.tuple id :: path) item
        return tupleText items
    | .dict r =>
      if path.contains (.dict r) then .ok "\x7b...\x7d"
      else do
        let items ← (s.dict r).entries.mapM fun e => do
          let k ← shownIn s fuel (.dict r :: path) e.key
          let v ← shownIn s fuel (.dict r :: path) e.value
          return k ++ ": " ++ v
        return bracketed "\x7b" "\x7d" items
    | .node n => nodeShownIn s fuel path n
    | .set _ [] => .ok "frozenset()"
    | .set _ items => do
      let items ← items.mapM fun item => shownIn s fuel path item
      return "frozenset(" ++ bracketed "\x7b" "\x7d" items ++ ")"
    | .closure r => do
      let params ← s.requiredSlot (.closure r) "params"
      let items ← s.elements (← s.requiredSlot params "value")
      let texts ← items.mapM fun p => do
        let mark := if (← s.requiredSlot p "type").isKind (.leaf .rest) then "&" else ""
        return mark ++ (← plainIn s fuel path (← s.requiredSlot p "value"))
      return "(fn [" ++ " ".intercalate texts ++ "] ...)"
    | .form f => do return "<special form " ++ (← plainIn s fuel path (s.formName f)) ++ ">"
    | .function ⟨.cls, _⟩ => .ok "<class '__main__.Point'>"
    | .function _ => .ok "<function>"
    | .method _ _ _ => .ok "<bound method>"
    | .object ⟨.plain, _⟩ => .ok "<Obj>"
    | .object ⟨.point, _⟩ => .ok "<Point>"
    | .iterator _ => .ok ("<" ++ v.typeName ++ ">")
    | .scope r => s.scopeText r

/-- How a node is shown: its kind, its content and its line. -/
def nodeShownIn (s : Store) :
    (fuel : Nat) → (path : List Container) → Node Value → Except Fault String
  | 0, _, _ => .ok "..."
  | fuel + 1, path, n =>
    match n with
    | .leaf k text mark =>
      .ok ((NodeKind.leaf k).name ++ "(" ++ Text.quoted text ++ ")@" ++ toString mark.line)
    | .group k items mark => do
      let items ← items.mapM fun item => nodeShownIn s fuel path item
      return "<" ++ (NodeKind.group k).name ++ "@" ++ toString mark.line ++ " "
        ++ " ".intercalate items ++ ">"
    | .host value line _ => do
      return NodeKind.host.name ++ "(" ++ (← shownIn s fuel path value) ++ ")@"
        ++ (← plainIn s fuel path line)

/-- How a value is printed by itself. -/
def plainIn (s : Store) : (fuel : Nat) → (path : List Container) → Value → Except Fault String
  | 0, _, _ => .ok "..."
  | fuel + 1, path, v =>
    match v with
    | .str t => .ok t
    | .kind k => .ok ("NodeType." ++ k.constant)
    | .scope r => do
      let items ← (← s.itemsOf (s.scope r).vars).mapM fun e => do
        let k ← plainIn s fuel path e.key
        let v ← shownIn s fuel path e.value
        return k ++ ": " ++ v
      let tail := match (s.scope r).parent with
        | .nil => ""
        | _ => " -> ..."
      return bracketed "\x7b" "\x7d" items ++ tail
    | v => shownIn s fuel path v

end

/-- The most levels of nesting that are shown. -/
def shownDepth : Nat := 100000

/-- How a value is shown inside other values and in messages. -/
def shown (s : Store) (v : Value) : Except Fault String := s.shownIn shownDepth [] v

/-- How a value is printed by itself. -/
def plain (s : Store) (v : Value) : Except Fault String := s.plainIn shownDepth [] v

/-! ## Errors -/

/-- A frame as a line of a report. -/
def frameText (s : Store) (f : Frame) : Except Fault String := do
  return f.ident.getD "None" ++ " (" ++ (← s.plain f.line) ++ ")"

/-- A message followed by the frames of a trace, one to a line. -/
def traceText (s : Store) (message : String) (trace : List Frame) : Except Fault String := do
  let frames ← trace.mapM s.frameText
  if frames.isEmpty then return message
  else return message ++ " \n at " ++ "\n at ".intercalate frames ++ " \n\n -----"

/-- The message of an error: its first argument, or the name of its class. -/
def messageOf (s : Store) (f : Failure) : Except Fault String :=
  match f.arguments with
  | [] => .ok f.kind.name
  | first :: _ => s.plain first

end Store

end Lisplet
