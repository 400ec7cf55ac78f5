import Lisplet.Proofs.Property.Additions
import Lisplet.Proofs.Property.Guards

/-!
# Failing writes

A write changes the store in its last step only, and this step cannot fail. So a write that fails,
along a path of any length and for any reason, has changed nothing that was there before: it has at
most made the methods that it read on the way.
-/

namespace Lisplet

namespace Store.Extended

variable {s t : Store}

/-- Every slot of a value that the store can have holds what it held. -/
theorem slot? (h : Extended s t) {v : Value}
    (hv : ∀ r, (v = .function r ∨ ∃ owner id, v = .method owner (.function r) id) →
      r.index < s.functions.size) (name : String) : t.slot? v name = s.slot? v name := by
  have hfunction : ∀ r : FunctionRef, r.index < s.functions.size →
      t.functionSlot? r name = s.functionSlot? r name := by
    intro r hr
    obtain ⟨ds, fs, -, h⟩ := h
    unfold Store.functionSlot? Store.function?
    rw [h, Array.getElem?_append_left hr]
  cases v with
  | function r => exact hfunction r (hv r (.inl rfl))
  | method owner m id =>
    cases m with
    | function r => exact hfunction r (hv r (.inr ⟨owner, id, rfl⟩))
    | _ => rfl
  | object r =>
    have hclass := h.pointClass
    have hobject : t.object r = s.object r := by
      obtain ⟨ds, fs, -, h⟩ := h
      rw [h]
      rfl
    show t.objectSlot? r name = s.objectSlot? r name
    unfold Store.objectSlot?
    rw [hclass, hobject]
  | _ =>
    obtain ⟨ds, fs, -, h⟩ := h
    rw [h]
    rfl

end Store.Extended

namespace Action

variable {α β : Type} {a : Action α} {f : α → Action β}

/-- If the action fails, it has only extended the store. -/
def Atomic (a : Action α) : Prop := ∀ s e t, a s = .failed e t → s.Extended t

namespace Atomic

theorem update (g : Store → Store) : Atomic (Action.update g) := by
  intro s e t h
  cases h

theorem of_extends (h : Extends a) : Atomic a := by
  intro s e t hfail
  have hs := h s
  rw [hfail] at hs
  exact hs

theorem bind (ha : Extends a) (hf : ∀ v, Atomic (f v)) : Atomic (a >>= f) := by
  intro s e t h
  rcases bind_eq_failed.mp h with h | ⟨v, u, hdone, h⟩
  · exact of_extends ha s e t h
  · have hs := ha s
    rw [hdone] at hs
    exact trans_of Store.Extended hs (hf v u e t h)

theorem map {g : α → β} (ha : Atomic a) : Atomic (a >>= fun v => pure (g v)) := by
  intro s e t h
  rcases bind_eq_failed.mp h with h | ⟨v, u, -, h⟩
  · exact ha s e t h
  · cases h

end Atomic

end Action

namespace Property

open Lisplet.Action

/-! ## One property -/

theorem refusal_extends (v : Value) (name : String) : Extends (refusal v name) := by
  refine (hasAttribute_extends v name).bind fun found => ?_
  split
  · exact .raise _
  · exact .raise _

theorem setClosureAttribute_atomic (r : ClosureRef) (c : Closure) (name : String) (value : Value) :
    Atomic (setClosureAttribute r c name value) := by
  unfold setClosureAttribute
  split
  case h_4 => exact .of_extends (refusal_extends _ _)
  all_goals exact .update _

theorem setScopeAttribute_atomic (r : ScopeRef) (name : String) (value : Value) :
    Atomic (setScopeAttribute r name value) := by
  refine Atomic.bind (.gets _) fun scope => ?_
  split
  case h_4 => exact .of_extends (refusal_extends _ _)
  all_goals exact .update _

theorem setKindAttribute_atomic (k : NodeKind) (name : String) (value : Value) :
    Atomic (setKindAttribute k name value) := by
  unfold setKindAttribute
  split
  · exact .of_extends (.raise _)
  · exact .update _

theorem setAttribute_atomic (v : Value) (name : String) (value : Value) :
    Atomic (setAttribute v name value) := by
  cases v with
  | object r => exact .bind (.gets _) fun attrs => .update _
  | function r =>
    simp only [setAttribute]
    split
    · exact .of_extends (.raise _)
    · exact .update _
  | closure r =>
    refine .bind (.gets _) fun c => ?_
    cases c with
    | some c => exact setClosureAttribute_atomic r c name value
    | none => exact .of_extends (refusal_extends _ _)
  | form f =>
    simp only [setAttribute]
    split
    · exact .update _
    · exact .update _
    · exact .of_extends (refusal_extends _ _)
  | scope r => exact setScopeAttribute_atomic r name value
  | node n => exact .of_extends (.raise _)
  | kind k => exact setKindAttribute_atomic k name value
  | method _ _ _ => exact .of_extends (.raise _)
  | _ => exact .of_extends (refusal_extends _ _)

theorem setNamed_atomic (v key value : Value) : Atomic (setNamed v key value) :=
  .bind (.compute _) fun name => setAttribute_atomic v name value

theorem setElement_atomic (r : ListRef) (i : Int) (value : Value) :
    Atomic (setElement r i value) := by
  refine .bind (.gets _) fun items => ?_
  dsimp only
  split
  · exact .update _
  · split
    · exact .of_extends (.raise _)
    · split
      · exact .update _
      · exact .of_extends (.raise _)

/-- A failing write of a property changes nothing. -/
theorem set_atomic (v key value : Value) : Atomic (set v key value) := by
  refine .bind (guardKey_reads key).moves fun _ => ?_
  cases v with
  | undefined | nil =>
    exact .of_extends (Moves.bind (.compute _) fun _ => Moves.bind (.compute _) fun _ => .raise _)
  | dict r =>
    exact .bind (.keyOf key) fun _ => .bind (.gets _) fun _ => .update _
  | list r =>
    refine .bind (.ofExcept _) fun index => ?_
    cases index with
    | some i => exact setElement_atomic r i value
    | none => exact setNamed_atomic _ key value
  | _ => exact setNamed_atomic _ key value

/-! ## Paths -/

theorem getPath_extends (v : Value) (path : List Value) : Extends (getPath v path) := by
  induction path generalizing v with
  | nil => exact .ret v
  | cons key path ih =>
    rw [getPath_cons]
    exact (get_extends v key).bind fun w => ih w

/-- A failing write along a path changes nothing. -/
theorem setPath_atomic (v : Value) (path : List Value) (value : Value) :
    Atomic (setPath v path value) := by
  by_cases hne : path = []
  · subst hne
    exact .of_extends (.raise _)
  · rw [setPath_of_ne_nil hne]
    refine .bind (Reads.forM guardKey_reads path).moves fun _ => ?_
    refine .bind (getPath_extends _ _) fun owner => ?_
    exact (set_atomic owner _ value).map

end Property

end Lisplet
