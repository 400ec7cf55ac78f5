import Lisplet.Proofs.Store.Shown
import Lisplet.Store.Action
import Mathlib.Order.Defs.Unbundled

/-!
# Running actions

How an action that consists of two parts ends, in terms of how the parts end. An action keeps a
relation between stores if the store that it leaves behind is so related to the one it starts from
and it never fails because an access is forbidden. There is one rule for each way to build an
action.
-/

namespace Lisplet

/-- The store at the end is related to the one at the start, and if there is an error it is not that
an access is forbidden. -/
def Outcome.Keeps {α : Type} (R : Store → Store → Prop) (s : Store) : Outcome α → Prop
  | .done _ t => R s t
  | .failed e t => R s t ∧ e.kind ≠ .forbiddenAccess
  | .exhausted => True

namespace Action

variable {α β : Type} {a : Action α} {f : α → Action β} {s t : Store}

theorem bind_apply (a : Action α) (f : α → Action β) (s : Store) :
    (a >>= f) s = match a s with
      | .done v t => f v t
      | .failed e t => .failed e t
      | .exhausted => .exhausted := rfl

theorem bind_of_done {v : α} (h : a s = .done v t) : (a >>= f) s = f v t := by
  rw [bind_apply, h]

theorem bind_of_failed {e : Failure} (h : a s = .failed e t) : (a >>= f) s = .failed e t := by
  rw [bind_apply, h]

/-- Two parts give a value if both of them do. -/
theorem bind_eq_done {w : β} : (a >>= f) s = .done w t ↔
    ∃ v u, a s = .done v u ∧ f v u = .done w t := by
  rw [bind_apply]
  cases h : a s with
  | done v u =>
    constructor
    · intro hf
      exact ⟨v, u, rfl, hf⟩
    · rintro ⟨v', u', hdone, hf⟩
      cases hdone
      exact hf
  | failed e u => simp
  | exhausted => simp

/-- Two parts fail if the first one does, or it gives a value and the second one fails. -/
theorem bind_eq_failed {e : Failure} : (a >>= f) s = .failed e t ↔
    a s = .failed e t ∨ ∃ v u, a s = .done v u ∧ f v u = .failed e t := by
  rw [bind_apply]
  cases h : a s with
  | done v u =>
    constructor
    · intro hf
      exact .inr ⟨v, u, rfl, hf⟩
    · rintro (hfail | ⟨v', u', hdone, hf⟩)
      · cases hfail
      · cases hdone
        exact hf
  | failed e' u => simp
  | exhausted => simp

/-- Two parts end if the first one does and, where it gives a value, the second one. -/
theorem bind_ne_exhausted (ha : a s ≠ .exhausted)
    (hf : ∀ v t, a s = .done v t → f v t ≠ .exhausted) : (a >>= f) s ≠ .exhausted := by
  rw [bind_apply]
  cases h : a s with
  | done v t => exact hf v t h
  | failed e t => simp
  | exhausted => exact absurd h ha

/-- What follows a first part only matters where the first part has a value. -/
theorem bind_eq_of_done {g : α → Action β} (h : ∀ v t, a s = .done v t → f v t = g v t) :
    (a >>= f) s = (a >>= g) s := by
  rw [bind_apply, bind_apply]
  cases ha : a s with
  | done v t => exact h v t ha
  | _ => rfl

theorem ite_eq_done {b : Action α} {c : Prop} [Decidable c] {v : α} :
    (if c then a else b) s = .done v t ↔ c ∧ a s = .done v t ∨ ¬c ∧ b s = .done v t := by
  by_cases h : c
  · simp [h]
  · simp [h]

/-- Nothing is done by giving a value, and how parts are put together does not matter. -/
instance : LawfulMonad Action :=
  LawfulMonad.mk' Action
    (fun a => funext fun s => by
      show (a >>= pure) s = a s
      rw [bind_apply]
      cases a s <;> rfl)
    (fun _ _ => rfl)
    (fun a f g => funext fun s => by
      rw [bind_apply, bind_apply, bind_apply]
      cases a s <;> rfl)

/-! ## Kept relations -/

/-- The store that an action leaves behind is related to the one it starts from, and the action
never fails because an access is forbidden. -/
def Keeps (R : Store → Store → Prop) (a : Action α) : Prop := ∀ s, (a s).Keeps R s

namespace Keeps

variable {R : Store → Store → Prop}

theorem exhausted : Keeps R (Action.exhausted (α := α)) := fun _ => trivial

theorem update {f : Store → Store} (h : ∀ s, R s (f s)) : Keeps R (Action.update f) := h

theorem make {f : Store → α × Store} (h : ∀ s, R s (f s).2) : Keeps R (Action.make f) := h

theorem not_forbidden {e : Failure} (h : Keeps R a) (hs : a s = .failed e t) :
    e.kind ≠ .forbiddenAccess := by
  have hkeep := h s
  rw [hs] at hkeep
  exact hkeep.2

variable [IsPreorder Store R]

theorem ret (a : α) : Keeps R (pure a) := fun s => refl_of R s

theorem gets (f : Store → α) : Keeps R (Action.gets f) := fun s => refl_of R s

theorem raise {fault : Fault} (h : fault.kind ≠ .forbiddenAccess) :
    Keeps R (Action.raise (α := α) fault) := fun s => ⟨refl_of R s, h⟩

theorem within (f : Store → Option α) : Keeps R (Action.within f) := by
  intro s
  unfold Action.within
  cases f s with
  | some a => exact refl_of R s
  | none => trivial

/-- What two parts keep one after the other. -/
theorem bind (ha : Keeps R a) (hf : ∀ v, Keeps R (f v)) : Keeps R (a >>= f) := by
  intro s
  have hs := ha s
  rw [bind_apply]
  cases h : a s with
  | done v t =>
    rw [h] at hs
    have ht := hf v t
    dsimp only
    cases h' : f v t with
    | done w u =>
      rw [h'] at ht
      exact trans_of R hs ht
    | failed e u =>
      rw [h'] at ht
      exact ⟨trans_of R hs ht.1, ht.2⟩
    | exhausted => trivial
  | failed e t =>
    rw [h] at hs
    exact hs
  | exhausted => trivial

theorem map {g : α → β} (ha : Keeps R a) : Keeps R (g <$> a) := ha.bind fun v => ret (g v)

/-- A computation from the store, if a forbidden access is not among its errors. -/
theorem compute {g : Store → Except Fault α} {kinds : List ErrorKind}
    (hg : ∀ s, ErrorsAmong kinds (g s)) (hk : .forbiddenAccess ∉ kinds) :
    Keeps R (Action.compute g) := by
  intro s
  unfold Action.compute
  cases h : g s with
  | ok a => exact refl_of R s
  | error fault =>
    refine ⟨refl_of R s, fun hkind => hk ?_⟩
    have hfault : fault.kind = .forbiddenAccess := hkind
    exact hfault ▸ (hg s fault h).1

theorem ofExcept {x : Except Fault α} {kinds : List ErrorKind} (hx : ErrorsAmong kinds x)
    (hk : .forbiddenAccess ∉ kinds) : Keeps R (Action.ofExcept x) := by
  cases x with
  | ok a => exact ret a
  | error fault =>
    refine raise fun h => hk ?_
    exact h ▸ (hx fault rfl).1

theorem keyOf (v : Value) : Keeps R (Action.keyOf v) := by
  unfold Action.keyOf
  cases v.key with
  | ok k => exact ret k
  | error typeName => exact raise (by simp [Fault.kind])

theorem shown (v : Value) : Keeps R (Action.compute (·.shown v)) :=
  compute (fun s => s.shown_errors v) (by decide)

theorem plain (v : Value) : Keeps R (Action.compute (·.plain v)) :=
  compute (fun s => s.plain_errors v) (by decide)

end Keeps

end Action

end Lisplet
