import Lisplet.Proofs.Evaluation.Hosts

/-!
# More steps

Whatever ends with some number of steps ends in the same way with any greater one. One action
approximates another if it ends like it or not at all, which sequencing respects, so that the
machine that has fewer steps left approximates the one that has more (`machine_mono`). Every operand
has therefore exactly one outcome with enough steps (`exists_comesTo`, `ComesTo.unique`), which is
`exhausted` if it never ends.
-/

namespace Lisplet

open Lisplet.Action

/-! ## Approximation -/

/-- The first outcome is the second one or none. -/
def Outcome.Approximates {α : Type} (o o' : Outcome α) : Prop := o = .exhausted ∨ o = o'

theorem Outcome.Approximates.trans {α : Type} {o o' o'' : Outcome α} (h : o.Approximates o')
    (h' : o'.Approximates o'') : o.Approximates o'' := by
  rcases h with hnone | rfl
  · exact .inl hnone
  · exact h'

namespace Action

variable {α β : Type} {a b c : Action α}

/-- The first action ends like the second one or not at all. -/
def Approximates (a b : Action α) : Prop := ∀ s, (a s).Approximates (b s)

namespace Approximates

theorem refl (a : Action α) : Approximates a a := fun _ => .inr rfl

theorem exhausted (a : Action α) : Approximates Action.exhausted a := fun _ => .inl rfl

theorem trans (hab : Approximates a b) (hbc : Approximates b c) : Approximates a c :=
  fun s => (hab s).trans (hbc s)

theorem bind {f g : α → Action β} (h : Approximates a b) (hfg : ∀ v, Approximates (f v) (g v)) :
    Approximates (a >>= f) (b >>= g) := by
  intro s
  rw [bind_apply, bind_apply]
  rcases h s with hnone | heq
  · rw [hnone]
    exact .inl rfl
  · rw [heq]
    cases b s with
    | done v t => exact hfg v t
    | _ => exact .inr rfl

theorem framed (h : Approximates a b) (frame : Frame) :
    Approximates (Action.framed frame a) (Action.framed frame b) := by
  intro s
  unfold Action.framed
  rcases h s with hnone | heq
  · rw [hnone]
    exact .inl rfl
  · rw [heq]
    exact .inr rfl

theorem catching (h : Approximates a b) (caught : ErrorKind → Bool) (instead : α) :
    Approximates (Action.catching caught instead a) (Action.catching caught instead b) := by
  intro s
  unfold Action.catching
  rcases h s with hnone | heq
  · rw [hnone]
    exact .inl rfl
  · rw [heq]
    exact .inr rfl

end Approximates

end Action

/-! ## Machines -/

/-- Approximation, as a relation that is passed on. -/
def approximating : Congruence where
  rel := Approximates
  candid _ := .refl _
  bind := Approximates.bind

/-- A loop with one more round, if its rounds are as good. -/
theorem Cursor.fold_approximates {σ : Type} {step step' : Value → σ → Action (ForInStep σ)}
    (hstep : ∀ v acc, Approximates (step v acc) (step' v acc)) (fuel : Nat) (c : Cursor)
    (acc : σ) : Approximates (fold step fuel c acc) (fold step' (fuel + 1) c acc) := by
  induction fuel generalizing c acc with
  | zero => exact .exhausted _
  | succ fuel ih =>
    refine Approximates.bind (.refl c.next?) fun next => ?_
    cases next with
    | none => exact .refl _
    | some next =>
      refine Approximates.bind (hstep next.1 acc) fun result => ?_
      cases result with
      | done acc => exact .refl _
      | yield acc => exact ih next.2 acc

/-- The machine with one step more ends whatever the machine ends, in the same way. -/
theorem machine_approximates (fuel : Nat) :
    (machine fuel).Related approximating (machine (fuel + 1)) := by
  induction fuel with
  | zero =>
    exact ⟨fun hstep => Cursor.fold_approximates hstep 0, fun _ _ => .exhausted _,
      fun _ _ _ => .exhausted _, fun _ _ => .exhausted _, fun _ _ _ _ => .exhausted _⟩
  | succ fuel ih =>
    refine ⟨fun hstep => Cursor.fold_approximates hstep (fuel + 1), Machine.evalStep_related ih,
      Machine.invokeStep_related ih,
      Machine.callStep_related_of_search (Host.offered_respects _) ih fun v value => ?_,
      fun scope head operands line => ?_⟩
    · exact Approximates.catching (SequenceMethod.positionOf_related ih v value) _ _
    · exact Approximates.framed (Machine.application_related ih scope head operands) _

theorem Machine.Related.trans {m m' m'' : Machine} (h : m.Related approximating m')
    (h' : m'.Related approximating m'') : m.Related approximating m'' where
  fold hstep c acc :=
    (h.fold hstep c acc).trans (h'.fold (fun _ _ => .refl _) c acc)
  eval scope operand := (h.eval scope operand).trans (h'.eval scope operand)
  invoke scope f operands := (h.invoke scope f operands).trans (h'.invoke scope f operands)
  call f args := (h.call f args).trans (h'.call f args)
  apply scope head operands line :=
    (h.apply scope head operands line).trans (h'.apply scope head operands line)

/-- A machine with more steps ends whatever a machine with fewer steps ends, in the same way. -/
theorem machine_mono {few many : Nat} (h : few ≤ many) :
    (machine few).Related approximating (machine many) := by
  induction h with
  | refl =>
    exact ⟨fun hstep => Cursor.fold_related (R := approximating) hstep few, fun _ _ => .refl _,
      fun _ _ _ => .refl _, fun _ _ => .refl _, fun _ _ _ _ => .refl _⟩
  | step _ ih => exact ih.trans (machine_approximates _)

theorem eval_mono {few many : Nat} (h : few ≤ many) (scope operand : Value) :
    Approximates (eval few scope operand) (eval many scope operand) :=
  (machine_mono h).eval scope operand

/-! ## Errors without frames -/

/-- The error without the calls that it has left. -/
def Failure.untraced (e : Failure) : Failure := { e with trace := [] }

namespace Outcome

variable {α : Type} {o o' : Outcome α}

/-- The outcome without the calls that an error has left. -/
def untraced : Outcome α → Outcome α
  | .failed e s => .failed e.untraced s
  | outcome => outcome

theorem untraced_eq_exhausted : o.untraced = .exhausted ↔ o = .exhausted := by
  cases o <;> simp [untraced]

theorem untraced_eq_done {v : α} {s : Store} : o.untraced = .done v s ↔ o = .done v s := by
  cases o <;> simp [untraced]

theorem Approximates.untraced (h : o.Approximates o') : o.untraced.Approximates o'.untraced := by
  rcases h with rfl | rfl
  · exact .inl rfl
  · exact .inr rfl

end Outcome

/-- A frame is nothing but one more call that an error has left. -/
theorem Action.untraced_framed {α : Type} (frame : Frame) (a : Action α) (s : Store) :
    (framed frame a s).untraced = (a s).untraced := by
  unfold framed
  cases a s <;> rfl

/-- What comes first may add frames to its errors. -/
theorem Action.untraced_bind {α β : Type} {a b : Action α} {f g : α → Action β} {s : Store}
    (h : (a s).untraced = (b s).untraced)
    (hfg : ∀ v t, b s = .done v t → (f v t).untraced = (g v t).untraced) :
    ((a >>= f) s).untraced = ((b >>= g) s).untraced := by
  rw [bind_apply, bind_apply]
  cases hb : b s with
  | done v t =>
    rw [hb] at h
    rw [Outcome.untraced_eq_done.mp h]
    exact hfg v t hb
  | exhausted =>
    rw [hb] at h
    rw [Outcome.untraced_eq_exhausted.mp h]
  | failed e t =>
    rw [hb] at h
    cases ha : a s with
    | failed e' t' =>
      rw [ha] at h
      injection h with herror hstore
      show Outcome.failed e'.untraced t' = .failed e.untraced t
      rw [herror, hstore]
    | _ =>
      rw [ha] at h
      cases h

/-! ## Outcomes with enough steps -/

/-- With enough steps the operand ends in this way, apart from the calls that an error has left. -/
def ComesTo (scope operand : Value) (s : Store) (o : Outcome Value) : Prop :=
  ∃ enough, ∀ fuel ≥ enough, (eval fuel scope operand s).untraced = o

namespace ComesTo

variable {scope operand other : Value} {s : Store} {o o' : Outcome Value}

/-- What ends with some number of steps ends like that. -/
theorem of_eval (fuel : Nat) (h : (eval fuel scope operand s).untraced = o) (ho : o ≠ .exhausted) :
    ComesTo scope operand s o := by
  refine ⟨fuel, fun more hmore => ?_⟩
  rcases (eval_mono hmore scope operand s).untraced with hnone | heq
  · exact absurd (h.symm.trans hnone) ho
  · rw [← heq, h]

theorem unique (h : ComesTo scope operand s o) (h' : ComesTo scope operand s o') : o = o' := by
  obtain ⟨enough, ho⟩ := h
  obtain ⟨enough', ho'⟩ := h'
  rw [← ho (max enough enough') (Nat.le_max_left _ _), ho' _ (Nat.le_max_right _ _)]

/-- Two operands end alike if each of them, with some steps more, does what the other one does. -/
theorem of_approximates {more : Nat}
    (h : ∀ fuel, (eval fuel scope operand s).untraced.Approximates
      (eval (fuel + more) scope other s).untraced)
    (h' : ∀ fuel, (eval fuel scope other s).untraced.Approximates
      (eval (fuel + more) scope operand s).untraced)
    (hcomes : ComesTo scope operand s o) : ComesTo scope other s o := by
  obtain ⟨enough, ho⟩ := hcomes
  by_cases hnone : o = .exhausted
  · refine ⟨enough, fun fuel hfuel => ?_⟩
    rcases h' fuel with hother | hother
    · rw [hother, hnone]
    · rw [hother, ho _ (Nat.le_add_right_of_le hfuel)]
  · have henough : (eval enough scope operand s).untraced = o := ho enough (Nat.le_refl _)
    rcases h enough with heval | heval
    · exact absurd (henough.symm.trans heval) hnone
    · exact of_eval _ (heval.symm.trans henough) hnone

end ComesTo

/-- Every operand has an outcome, which is none if it never ends. -/
theorem exists_comesTo (scope operand : Value) (s : Store) : ∃ o, ComesTo scope operand s o := by
  by_cases h : ∃ fuel, eval fuel scope operand s ≠ .exhausted
  · obtain ⟨fuel, hfuel⟩ := h
    exact ⟨_, .of_eval fuel rfl fun hnone => hfuel (Outcome.untraced_eq_exhausted.mp hnone)⟩
  · refine ⟨.exhausted, 0, fun fuel _ => ?_⟩
    rw [not_exists_not.mp h fuel]
    rfl

end Lisplet
