import Lisplet.Proofs.Property.Methods
import Lisplet.Proofs.Store.Running

/-!
# Attributes always give an answer

An action is total if it ends with a value, whatever the store. Whether a value has an attribute,
and which, is always found out; so is which method of a sequence a text names.
-/

namespace Lisplet

namespace Action

variable {α β : Type}

/-- The action always ends with a value. -/
def Total (a : Action α) : Prop := ∀ s, ∃ v t, a s = .done v t

namespace Total

theorem ret (v : α) : Total (pure v : Action α) := fun s => ⟨v, s, rfl⟩

theorem gets (f : Store → α) : Total (Action.gets f) := fun s => ⟨f s, s, rfl⟩

theorem make (f : Store → α × Store) : Total (Action.make f) := fun s => ⟨(f s).1, (f s).2, rfl⟩

theorem bind {a : Action α} {f : α → Action β} (ha : Total a) (hf : ∀ v, Total (f v)) :
    Total (a >>= f) := by
  intro s
  obtain ⟨v, t, hv⟩ := ha s
  obtain ⟨w, u, hw⟩ := hf v t
  exact ⟨w, u, (bind_of_done hv).trans hw⟩

theorem map {a : Action α} (g : α → β) (ha : Total a) : Total (g <$> a) :=
  ha.bind fun v => ret (g v)

end Total

theorem newMethod_total (receiver : Value) (m : Method) : Total (newMethod receiver m) :=
  (Total.make _).bind fun _ => .ret _

theorem newTuple_total (items : List Value) : Total (newTuple items) := by
  unfold newTuple
  split
  · exact .ret _
  · exact (Total.make _).bind fun _ => .ret _

theorem newFunction_total (code : FunctionCode) : Total (newFunction code) :=
  (Total.make _).bind fun _ => .ret _

theorem theFunction_total (code : FunctionCode) : Total (theFunction code) :=
  (Total.make _).bind fun _ => .ret _

end Action

namespace Property

open Lisplet.Action

/-! ## Attributes -/

theorem method?_total (v : Value) (name : String) : Total (method? v name) := by
  intro s
  obtain ⟨a, hread, heq⟩ := method?_read v name s
  rw [heq]
  cases hread with
  | absent | shared _ | given _ _ _ _ _ => exact Total.ret _ s
  | fresh m => exact (newMethod_total _ m).map some s
  | builtIn _ _ _ | unbound _ _ => exact (theFunction_total _).map some s

theorem attribute?_total (v : Value) (name : String) : Total (attribute? v name) := by
  refine (Total.gets _).bind fun slot => ?_
  cases slot with
  | some value => exact .ret _
  | none => exact method?_total v name

theorem hasAttribute_total (v : Value) (name : String) : Total (hasAttribute v name) := by
  unfold hasAttribute
  split
  · exact .ret _
  · exact (attribute?_total v name).bind fun _ => .ret _

theorem attributeOf_total (v key : Value) : Total (attributeOf v key) := by
  unfold attributeOf
  split
  · exact .ret _
  · exact (attribute?_total v _).bind fun _ => .ret _

variable {key : Value} {name : String}

theorem keyOf_of_text (hname : key.text? = some name) : Total (keyOf key) := by
  cases key with
  | str _ | kind _ => exact Total.ret _
  | _ => cases hname

theorem sequenceMethod?_total (v : Value) (hname : key.text? = some name) :
    Total (sequenceMethod? v key) := by
  refine (keyOf_of_text hname).bind fun _ => ?_
  split
  · exact (newTuple_total _).bind fun _ => (Total.make _).bind fun _ => (newFunction_total _).map _
  · exact .ret _

end Property

end Lisplet
