import Lisplet.Evaluation.Cursor
import Lisplet.Method.Signature
import Lisplet.Proofs.Property.Additions

/-!
# Operands

What forms read off their operands when these are nodes, that reading them only adds to the store,
and how many of them forms accept.
-/

namespace Lisplet

open Lisplet.Action

theorem NodeKind.name_injective : Function.Injective NodeKind.name := by
  rintro ((_ | _ | _ | _ | _ | _) | (_ | _ | _ | _) | _)
    ((_ | _ | _ | _ | _ | _) | (_ | _ | _ | _) | _) h <;>
  first
  | rfl
  | exact absurd h (by decide)

namespace Node

variable {α : Type} {n : Node α}

theorem exists_leaf_of_kind {k : LeafKind} (h : n.kind = .leaf k) :
    ∃ text mark, n = .leaf k text mark := by
  cases n with
  | leaf kind text mark =>
    cases h
    exact ⟨text, mark, rfl⟩
  | group kind items mark => cases h
  | host value line serial => cases h

theorem exists_group_of_kind {k : GroupKind} (h : n.kind = .group k) :
    ∃ items mark, n = .group k items mark := by
  cases n with
  | leaf kind text mark => cases h
  | group kind items mark =>
    cases h
    exact ⟨items, mark, rfl⟩
  | host value line serial => cases h

end Node

namespace Operand

theorem kind_node (n : Expr) : kind (.node n) = pure (.kind n.kind) := rfl

theorem isA_node (k : NodeKind) (n : Expr) : isA k (.node n) = pure (n.kind == k) := rfl

theorem content_leaf (k : LeafKind) (text : String) (mark : Mark) :
    content (.node (.leaf k text mark)) = pure (.str text) :=
  rfl

theorem denotes_kind {j k : NodeKind} : denotes k (.kind j) = true ↔ j = k := by
  unfold denotes
  rw [beq_iff_eq, Value.text?, Option.some_inj]
  exact NodeKind.name_injective.eq_iff

theorem isKind_kind {j k : NodeKind} : (Value.kind j).isKind k = true ↔ j = k := beq_iff_eq

/-! ## Reading an operand only adds to the store -/

theorem kind_extends (v : Value) : Extends (kind v) := by
  unfold kind
  split
  · exact .ret _
  · exact Property.member_extends _ _

theorem line_extends (v : Value) : Extends (line v) := by
  unfold line
  split
  · exact .ret _
  · exact Property.member_extends _ _

theorem isA_extends (k : NodeKind) (v : Value) : Extends (isA k v) :=
  (kind_extends v).bind fun _ => .ret _

theorem kindText_extends (v : Value) : Extends (kindText v) :=
  (kind_extends v).bind fun _ => (Property.member_extends _ _).bind fun _ => .compute _

theorem described_extends (v : Value) : Extends (described v) :=
  (kindText_extends v).bind fun _ => (line_extends v).bind fun _ =>
    Moves.bind (.compute _) fun _ => .ret _

end Operand

/-! ## Slots -/

/-- A slot of a value is its attribute. -/
theorem Property.member_of_slot {v value : Value} {name : String} {s : Store}
    (h : s.slot? v name = some value) : Property.member v name s = .done value s := by
  have hread : Action.gets (·.slot? v name) s = .done (some value) s :=
    congrArg (Outcome.done · s) h
  have hattribute : Property.attribute? v name s = .done (some value) s := bind_of_done hread
  exact bind_of_done hattribute

theorem Property.member_closure {c : ClosureRef} {cell : Closure} {s : Store}
    (h : s.closure? c = some cell) :
    Property.member (.closure c) "params" s = .done cell.params s ∧
      Property.member (.closure c) "body" s = .done cell.body s ∧
      Property.member (.closure c) "scope" s = .done cell.scope s := by
  have hslot : ∀ name, s.slot? (.closure c) name = s.closureSlot? c name := fun _ => rfl
  refine ⟨member_of_slot ?_, member_of_slot ?_, member_of_slot ?_⟩ <;>
    · rw [hslot]
      unfold Store.closureSlot?
      rw [h]
      rfl

/-! ## Counting and walking -/

theorem Signature.check_eq (sig : Signature) (given : Nat) :
    sig.check given = pure () ∨ ∃ fault, sig.check given = .raise fault := by
  unfold Signature.check
  split
  · exact .inr ⟨_, rfl⟩
  · split
    · exact .inr ⟨_, rfl⟩
    · exact .inl rfl

/-- The items of a group are walked through as they are. -/
theorem Machine.foldElements_group {σ : Type} (m : Machine) (items : List Expr) (mark : Mark)
    (kind : GroupKind) (init : σ) (step : Value → σ → Action (ForInStep σ)) :
    m.foldElements (contentOf (.group kind items mark)) init step =
      foldItems step (items.map .node) init := by
  cases items with
  | nil => rfl
  | cons item rest => rfl

end Lisplet
