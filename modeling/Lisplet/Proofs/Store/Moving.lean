import Lisplet.Proofs.Store.Running

/-!
# Actions that move along a relation

An action moves along a relation between stores if every store that it can leave behind, with a
value or with an error, is so related to the one it starts from. There is one rule for each way to
build an action.
-/

namespace Lisplet

/-- The store at the end is related to the one at the start. -/
def Outcome.Moves {α : Type} (R : Store → Store → Prop) (s : Store) : Outcome α → Prop
  | .done _ t | .failed _ t => R s t
  | .exhausted => True

theorem Outcome.Moves.weaken {α : Type} {R R' : Store → Store → Prop} {s : Store} {o : Outcome α}
    (ho : o.Moves R s) (h : ∀ t, R s t → R' s t) : o.Moves R' s := by
  cases o with
  | done v t => exact h t ho
  | failed e t => exact h t ho
  | exhausted => trivial

namespace Action

variable {α β : Type} {a : Action α} {f : α → Action β}

/-- Every store that the action leaves behind is related to the one it starts from. -/
def Moves (R : Store → Store → Prop) (a : Action α) : Prop := ∀ s, (a s).Moves R s

namespace Moves

variable {R : Store → Store → Prop}

theorem weaken {R' : Store → Store → Prop} (ha : Moves R a) (h : ∀ s t, R s t → R' s t) :
    Moves R' a :=
  fun s => (ha s).weaken (h s)

theorem update {g : Store → Store} (h : ∀ s, R s (g s)) : Moves R (Action.update g) := h

theorem make {g : Store → α × Store} (h : ∀ s, R s (g s).2) : Moves R (Action.make g) := h

variable [IsPreorder Store R]

@[grind ←]
theorem ret (v : α) : Moves R (pure v) := fun s => refl_of R s

@[grind ←]
theorem gets (g : Store → α) : Moves R (Action.gets g) := fun s => refl_of R s

@[grind ←]
theorem raise (fault : Fault) : Moves R (Action.raise (α := α) fault) := fun s => refl_of R s

@[grind ←]
theorem compute (g : Store → Except Fault α) : Moves R (Action.compute g) := by
  intro s
  unfold Action.compute
  split <;> exact refl_of R s

@[grind ←]
theorem within (g : Store → Option α) : Moves R (Action.within g) := by
  intro s
  unfold Action.within
  split
  · exact refl_of R s
  · trivial

@[grind ←]
theorem ofExcept (x : Except Fault α) : Moves R (Action.ofExcept x) := by
  cases x with
  | ok v => exact ret v
  | error fault => exact raise fault

/-- For one store to start from, and for the values that the first part gives there. -/
theorem bind_of {s : Store} (hs : (a s).Moves R s)
    (hf : ∀ v t, a s = .done v t → (f v t).Moves R t) : ((a >>= f) s).Moves R s := by
  rw [bind_apply]
  cases hrun : a s with
  | done v t =>
    rw [hrun] at hs
    have ht := hf v t hrun
    dsimp only
    cases hnext : f v t with
    | done w u =>
      rw [hnext] at ht
      exact trans_of R hs ht
    | failed e u =>
      rw [hnext] at ht
      exact trans_of R hs ht
    | exhausted => trivial
  | failed e t =>
    rw [hrun] at hs
    exact hs
  | exhausted => trivial

theorem bind_at {s : Store} (hs : (a s).Moves R s) (hf : ∀ v, Moves R (f v)) :
    ((a >>= f) s).Moves R s :=
  bind_of hs fun v t _ => hf v t

@[grind ←]
theorem bind (ha : Moves R a) (hf : ∀ v, Moves R (f v)) : Moves R (a >>= f) :=
  fun s => bind_at (ha s) hf

@[grind ←]
theorem map {g : α → β} (ha : Moves R a) : Moves R (g <$> a) := ha.bind fun v => ret (g v)

@[grind ←]
theorem discard (ha : Moves R a) : Moves R (discard a) := ha.bind fun _ => ret _

@[grind ←]
theorem keyOf (v : Value) : Moves R (Action.keyOf v) := by
  unfold Action.keyOf
  split
  · exact ret _
  · exact raise _

end Moves

end Action

end Lisplet
