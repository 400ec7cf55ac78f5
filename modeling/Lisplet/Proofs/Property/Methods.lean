import Lisplet.Property.Basic
import Lisplet.Proofs.Store.Running

/-!
# What is done to read a method

Which method a name stands for depends on the kind of value, but getting it takes one of very few
actions: it is there already, or it is made at that moment. `MethodRead` lists them. What holds of
each of them holds of reading a method, so that no later proof goes through the kinds of values
again.
-/

namespace Lisplet.Property

open Lisplet.Action

/-- The actions that reading a method of this name from this value may come down to. -/
inductive MethodRead (v : Value) (name : String) (s : Store) : Action (Option Value) → Prop
  /-- There is no such method. -/
  | absent : MethodRead v name s (pure none)
  /-- The method belongs to the type and is there once for all. -/
  | shared (m : Method) : MethodRead v name s (pure (some (.method (ownerOf v m) m 0)))
  /-- The method is made for the occasion. -/
  | fresh (m : Method) : MethodRead v name s (some <$> newMethod (ownerOf v m) m)
  /-- The form was given what it does by a script. -/
  | given (f : Form) (body : Value) (hv : v = .form f) (hname : name = "fn")
      (hbody : s.formBodies.lookup f = some body) : MethodRead v name s (pure (some body))
  /-- What a form does, as it is built in. -/
  | builtIn (f : Form) (hv : v = .form f) (hname : name = "fn") :
      MethodRead v name s (some <$> theFunction (.formBody f))
  /-- The function inside a bound sequence method. -/
  | unbound (m : SequenceMethod) (hname : name = "func") :
      MethodRead v name s (some <$> theFunction (.unbound m))

variable (v : Value) (name : String) (s : Store)

theorem readMethod_read (m : Method) : MethodRead v name s (some <$> readMethod v m) := by
  unfold readMethod
  split
  · exact .shared _
  · exact .fresh _

theorem methodNamed_read {μ : Type} (method : Option μ) (kind : μ → Method) :
    MethodRead v name s (methodNamed v method kind) := by
  cases method with
  | some m => exact readMethod_read v name s (kind m)
  | none => exact .absent

theorem formBody_read (f : Form) :
    ∃ a, MethodRead (.form f) "fn" s a ∧ (some <$> formBody f) s = a s := by
  cases hbody : s.formBodies.lookup f with
  | some body =>
    refine ⟨_, .given f body rfl rfl hbody, ?_⟩
    simp only [formBody, map_eq_pure_bind, bind_apply, Action.gets, hbody]
    rfl
  | none =>
    refine ⟨_, .builtIn f rfl rfl, ?_⟩
    simp only [formBody, map_eq_pure_bind, bind_apply, Action.gets, hbody]

theorem boundFunction?_read (r : FunctionRef) :
    ∃ a, MethodRead v "func" s a ∧ boundFunction? r s = a s := by
  refine ⟨_, ?_, bind_apply _ _ s⟩
  split
  · exact .unbound _ rfl
  · exact .absent

theorem classMethod?_read (r : ObjectRef) :
    ∃ a, MethodRead (.object r) name s a ∧ classMethod? r name s = a s := by
  refine ⟨_, ?_, bind_apply _ _ s⟩
  split
  · exact .fresh (.function _)
  · exact .absent

/-- Reading a method is one of the actions that `MethodRead` lists. -/
theorem method?_read : ∃ a, MethodRead v name s a ∧ method? v name s = a s := by
  cases v with
  | bool _ | int _ | float _ | str _ | kind _ | bytes _ _ | list _ | tuple _ _ | set _ _
  | scope _ => exact ⟨_, methodNamed_read _ _ s _ _, rfl⟩
  | node n =>
    simp only [method?]
    split
    · exact ⟨_, readMethod_read _ _ s .wrap, rfl⟩
    · exact ⟨_, .absent, rfl⟩
  | closure r =>
    simp only [method?]
    split
    · exact ⟨_, .fresh .invoke, rfl⟩
    · exact ⟨_, .absent, rfl⟩
  | form f =>
    simp only [method?]
    split
    · exact formBody_read s f
    · exact ⟨_, .fresh .invoke, rfl⟩
    · exact ⟨_, .absent, rfl⟩
  | function r =>
    simp only [method?]
    split
    · next hname =>
      obtain rfl : name = "func" := beq_iff_eq.mp hname
      exact boundFunction?_read _ s r
    · exact ⟨_, .absent, rfl⟩
  | object r => exact classMethod?_read name s r
  | undefined | nil | dict _ | method _ _ _ | iterator _ => exact ⟨_, .absent, rfl⟩

/-! ## What is read -/

/-- The action gives at most a method or a function. -/
def GivesCallable (a : Action (Option Value)) : Prop :=
  ∀ s w t, a s = .done (some w) t →
    (∃ owner m id, w = .method owner m id) ∨ ∃ r, w = .function r

/-- A method is one or a function; only what a form does can be any value. -/
theorem method?_callable {v : Value} {name : String} (h : name = "fn" → ∀ f, v ≠ .form f) :
    GivesCallable (method? v name) := by
  intro s w t hdone
  obtain ⟨a, hread, heq⟩ := method?_read v name s
  rw [heq] at hdone
  cases hread with
  | absent => cases hdone
  | shared m =>
    cases hdone
    exact .inl ⟨_, _, _, rfl⟩
  | fresh m =>
    cases hdone
    exact .inl ⟨_, _, _, rfl⟩
  | given f _ hv hname _ => exact absurd hv (h hname f)
  | builtIn f hv hname => exact absurd hv (h hname f)
  | unbound m _ =>
    cases hdone
    exact .inr ⟨_, rfl⟩

end Lisplet.Property
