import Lisplet.Proofs.Store.Moving

/-!
# Actions that only read

Much of what the host does looks at values and at the store without changing anything: it takes
arguments apart, compares, counts and searches. Such an action leaves the store as it is, however it
ends, and an error that it fails with is a new one. There is one rule for each way to build an
action; what other properties an action has because it only reads is derived from that.
-/

namespace Lisplet

/-- The store is the one at the start, and an error is a new one. -/
def Outcome.Reads {α : Type} (s : Store) : Outcome α → Prop
  | .done _ t => t = s
  | .failed e t => t = s ∧ ∃ fault, e = .fresh fault
  | .exhausted => True

namespace Action

variable {α β : Type} {a : Action α} {f : α → Action β}

/-- The action leaves the store as it is, and its errors are new. -/
def Reads (a : Action α) : Prop := ∀ s, (a s).Reads s

namespace Reads

@[grind ←]
theorem ret (v : α) : Reads (pure v) := fun _ => rfl

@[grind ←]
theorem exhausted : Reads (Action.exhausted : Action α) := fun _ => trivial

@[grind ←]
theorem raise (fault : Fault) : Reads (Action.raise fault : Action α) := fun _ => ⟨rfl, fault, rfl⟩

@[grind ←]
theorem gets (g : Store → α) : Reads (Action.gets g) := fun _ => rfl

@[grind ←]
theorem compute (g : Store → Except Fault α) : Reads (Action.compute g) := by
  intro s
  unfold Action.compute
  split
  · rfl
  · exact raise _ s

@[grind ←]
theorem within (g : Store → Option α) : Reads (Action.within g) := by
  intro s
  unfold Action.within
  split
  · rfl
  · trivial

@[grind ←]
theorem ofExcept (x : Except Fault α) : Reads (Action.ofExcept x) := by
  cases x with
  | ok v => exact ret v
  | error fault => exact raise fault

@[grind ←]
theorem bind (ha : Reads a) (hf : ∀ v, Reads (f v)) : Reads (a >>= f) := by
  intro s
  have hs := ha s
  rw [bind_apply]
  cases hrun : a s with
  | done v t =>
    rw [hrun] at hs
    obtain rfl : t = s := hs
    exact hf v t
  | failed e t => rwa [hrun] at hs
  | exhausted => trivial

theorem discard (ha : Reads a) : Reads (discard a) := ha.bind fun _ => ret _

@[grind ←]
theorem mapM {g : α → Action β} (hg : ∀ v, Reads (g v)) (items : List α) :
    Reads (items.mapM g) := by
  induction items with
  | nil => exact ret []
  | cons v rest ih =>
    rw [List.mapM_cons]
    exact (hg v).bind fun _ => ih.bind fun _ => ret _

@[grind ←]
theorem forM {g : α → Action PUnit} (hg : ∀ v, Reads (g v)) (items : List α) :
    Reads (items.forM g) := by
  induction items with
  | nil => exact ret _
  | cons v rest ih => exact (hg v).bind fun _ => ih

@[grind ←]
theorem keyOf (v : Value) : Reads (Action.keyOf v) := by
  unfold Action.keyOf
  split
  · exact ret _
  · exact raise _

@[grind ←]
theorem truthy (v : Value) : Reads (Action.truthy v) := gets _

theorem store_eq {s t : Store} {v : α} (ha : Reads a) (h : a s = .done v t) : t = s := by
  have hs := ha s
  rw [h] at hs
  exact hs

/-- What only reads moves along every preorder. -/
theorem moves {R : Store → Store → Prop} [IsPreorder Store R] (ha : Reads a) : Moves R a := by
  intro s
  have hs := ha s
  cases hrun : a s with
  | done v t =>
    rw [hrun] at hs
    obtain rfl : t = s := hs
    exact refl_of R t
  | failed e t =>
    rw [hrun] at hs
    obtain rfl : t = s := hs.1
    exact refl_of R t
  | exhausted => trivial

end Reads

end Action

end Lisplet
