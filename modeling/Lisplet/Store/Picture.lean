import Lisplet.Store.Shown

/-!
# Taking snapshots

`Store.picture` takes a snapshot of a value. It keeps the path of containers around the value, and a
container that is already on the path becomes the number of steps up to it.
-/

namespace Lisplet.Store

/-- A text for a picture; an error has none. -/
def pictureText (text : Except Fault String) : String := text.toOption.getD ""

mutual

/-- The picture of a value inside the containers of a path. -/
def pictureIn (s : Store) : (fuel : Nat) → (path : List Container) → Value → Snapshot
  | 0, _, _ => .cycle 0
  | fuel + 1, path, v =>
    let inside := fun (c : Container) (build : List Container → Snapshot) =>
      match path.idxOf? c with
      | some i => .cycle (i + 1)
      | none => build (c :: path)
    match v with
    | .undefined => .undefined
    | .nil => .nil
    | .bool b => .bool b
    | .int i => .int i
    | .float d => .float d.text
    | .str t => .str t
    | .kind k => .kind k
    | .list r => inside (.list r) fun path =>
        .list ((s.list r).toList.map fun item => pictureIn s fuel path item)
    | .tuple id items =>
      if items.isEmpty then .tuple []
      else inside (.tuple id) fun path => .tuple (items.map fun item => pictureIn s fuel path item)
    | .dict r => inside (.dict r) fun path =>
        .dict ((s.dict r).entries.map fun e =>
          (pictureIn s fuel path e.key, pictureIn s fuel path e.value))
    | .node n => .node (nodePictureIn s fuel path n)
    | .closure _ => .closure (pictureText (s.shown v))
    | .form _ => .form (pictureText (s.shown v))
    | .function _ | .method _ _ _ => .callable
    | .object r => inside (.object r) fun path =>
        .object v.typeName ((s.object r).map fun a => (a.1, pictureIn s fuel path a.2))
    | .scope r => .scope (pictureText (s.scopeText r))
    | .bytes _ _ | .set _ _ | .iterator _ => .other v.typeName

/-- The picture of a node. -/
def nodePictureIn (s : Store) : (fuel : Nat) → (path : List Container) → Node Value → Node Snapshot
  | 0, _, n => .leaf .string "" ⟨0, n.serial⟩
  | fuel + 1, path, n =>
    match n with
    | .leaf k text mark => .leaf k text mark
    | .group k items mark => .group k (items.map fun item => nodePictureIn s fuel path item) mark
    | .host value line serial =>
      .host (pictureIn s fuel path value) (pictureIn s fuel path line) serial

end

/-- The picture of a value. -/
def picture (s : Store) (v : Value) : Snapshot := s.pictureIn shownDepth [] v

end Lisplet.Store
