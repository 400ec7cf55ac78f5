import Lisplet.Proofs.Evaluation.Steps

/-!
# Conclusions

An action that depends on a number of steps comes to a conclusion if some number of steps suffices
for it to end: with a value, or with an error of a certain class. Where more steps change nothing
(`Increasing`) there is at most one conclusion, and what is done in two parts concludes like the
first part and then the second (`concludes_bind`), however the steps are shared out between them.
-/

namespace Lisplet

open Lisplet.Action

/-- How something ends, if only the class of an error counts. -/
inductive Conclusion (α : Type) where
  | value (v : α) (s : Store)
  | error (kind : ErrorKind) (s : Store)

namespace Outcome

variable {α : Type} {o o' : Outcome α}

/-- The conclusion that an outcome is, unless the steps did not suffice. -/
def conclusion? : Outcome α → Option (Conclusion α)
  | .done v s => some (.value v s)
  | .failed e s => some (.error e.kind s)
  | .exhausted => none

theorem conclusion?_eq_value {v : α} {s : Store} :
    o.conclusion? = some (.value v s) ↔ o = .done v s := by
  cases o <;> simp [conclusion?]

theorem Approximates.conclusion? {c : Conclusion α} (h : o.Approximates o')
    (hc : o.conclusion? = some c) : o'.conclusion? = some c := by
  rcases h with rfl | rfl
  · cases hc
  · exact hc

end Outcome

namespace Action

variable {α β : Type}

/-- A frame does not change the class of an error. -/
theorem conclusion?_framed (frame : Frame) (a : Action α) (s : Store) :
    (framed frame a s).conclusion? = (a s).conclusion? := by
  unfold framed
  cases a s <;> rfl

/-- More steps change nothing once some number of steps has sufficed. -/
def Increasing (a : Nat → Action α) : Prop :=
  ∀ ⦃few many⦄, few ≤ many → Approximates (a few) (a many)

namespace Increasing

variable {a : Nat → Action α} {f : Nat → α → Action β}

theorem const (a : Action α) : Increasing fun _ => a := fun _ _ _ => .refl a

theorem bind (ha : Increasing a) (hf : ∀ v, Increasing (f · v)) :
    Increasing fun n => a n >>= f n :=
  fun _ _ h => Approximates.bind (ha h) fun v => hf v h

/-- What is written against a machine, when it is passed on from machines that are related. -/
theorem of_related {a : Machine → Action α}
    (h : ∀ {m m' : Machine}, m.Related approximating m' → Approximates (a m) (a m')) :
    Increasing fun n => a (machine n) :=
  fun _ _ hle => h (machine_mono hle)

theorem eval (scope operand : Value) : Increasing (Lisplet.eval · scope operand) :=
  fun _ _ h => eval_mono h scope operand

theorem call (f : Value) (args : List Value) : Increasing (Lisplet.call · f args) :=
  fun _ _ h => (machine_mono h).call f args

theorem ne_exhausted {s : Store} (ha : Increasing a) {few many : Nat} (h : few ≤ many)
    (hfew : a few s ≠ .exhausted) : a many s ≠ .exhausted := by
  rcases ha h s with hnone | heq
  · exact absurd hnone hfew
  · exact heq ▸ hfew

/-- A loop over a list whose rounds are given more and more steps. -/
theorem foldlM {γ : Type} {step : Nat → β → γ → Action β} (h : ∀ v x, Increasing (step · v x))
    (xs : List γ) (v : β) : Increasing fun n => xs.foldlM (step n) v := by
  induction xs generalizing v with
  | nil => exact const (pure v)
  | cons x rest ih =>
    simp only [List.foldlM_cons]
    exact (h v x).bind fun w => ih w

end Increasing

/-- Some number of steps suffices for the action to come to this conclusion. -/
def Concludes (a : Nat → Action α) (s : Store) (c : Conclusion α) : Prop :=
  ∃ n, (a n s).conclusion? = some c

end Action

/-- What follows a first part, whose conclusions are given: an error of the first part, or a
conclusion of what is done with its value. -/
def Conclusion.Then {α β : Type} (first : Conclusion α → Prop)
    (next : α → Store → Conclusion β → Prop) (c : Conclusion β) : Prop :=
  (∃ v t, first (.value v t) ∧ next v t c) ∨ ∃ kind t, first (.error kind t) ∧ c = .error kind t

namespace Conclusion.Then

variable {α β γ : Type} {first first' : Conclusion α → Prop}
  {next next' : α → Store → Conclusion β → Prop}

/-- The second part counts only where the first part has a value. -/
theorem congr {c : Conclusion β} (h : ∀ c, first c ↔ first' c)
    (hnext : ∀ v t, first (.value v t) → (next v t c ↔ next' v t c)) :
    Then first next c ↔ Then first' next' c := by
  refine or_congr ?_ (exists_congr fun kind => exists_congr fun t => and_congr_left fun _ => h _)
  refine exists_congr fun v => exists_congr fun t => ?_
  rw [← h]
  exact and_congr_right (hnext v t)

theorem assoc {last : β → Store → Conclusion γ → Prop} {c : Conclusion γ} :
    Then (Then first next) last c ↔ Then first (fun v t => Then (next v t) last) c := by
  constructor
  · rintro (⟨w, u, ⟨v, t, hv, hw⟩ | ⟨_, _, _, herror⟩, hlast⟩ |
      ⟨kind, u, ⟨v, t, hv, hw⟩ | ⟨_, _, hfirst, herror⟩, rfl⟩)
    · exact .inl ⟨v, t, hv, .inl ⟨w, u, hw, hlast⟩⟩
    · cases herror
    · exact .inl ⟨v, t, hv, .inr ⟨kind, u, hw, rfl⟩⟩
    · cases herror
      exact .inr ⟨_, _, hfirst, rfl⟩
  · rintro (⟨v, t, hv, ⟨w, u, hw, hlast⟩ | ⟨kind, u, hw, rfl⟩⟩ | ⟨kind, t, hfirst, rfl⟩)
    · exact .inl ⟨w, u, .inl ⟨v, t, hv, hw⟩, hlast⟩
    · exact .inr ⟨kind, u, .inl ⟨v, t, hv, hw⟩, rfl⟩
    · exact .inr ⟨kind, t, .inr ⟨kind, t, hfirst, rfl⟩, rfl⟩

/-- A first part that can only conclude in one way. -/
theorem of_value {v : α} {t : Store} {c : Conclusion β} (h : ∀ c, first c ↔ c = .value v t) :
    Then first next c ↔ next v t c := by
  constructor
  · rintro (⟨w, u, hfirst, hnext⟩ | ⟨kind, u, hfirst, -⟩)
    · cases (h _).mp hfirst
      exact hnext
    · cases (h _).mp hfirst
  · exact fun hnext => .inl ⟨v, t, (h _).mpr rfl, hnext⟩

end Conclusion.Then

namespace Action.Concludes

variable {α β : Type} {a b : Nat → Action α} {s : Store} {c c' : Conclusion α}

theorem mono (ha : Increasing a) {few many : Nat} (h : few ≤ many)
    (hc : (a few s).conclusion? = some c) : (a many s).conclusion? = some c :=
  (ha h s).conclusion? hc

theorem unique (ha : Increasing a) (h : Concludes a s c) (h' : Concludes a s c') : c = c' := by
  obtain ⟨n, hn⟩ := h
  obtain ⟨n', hn'⟩ := h'
  have hmax := mono ha (Nat.le_max_left n n') hn
  rw [mono ha (Nat.le_max_right n n') hn'] at hmax
  exact (Option.some.inj hmax).symm

/-- A value does not depend on how many steps more than enough there are. -/
theorem value_unique (ha : Increasing a) {few many : Nat} {v w : α} {t u : Store}
    (h : a few s = .done v t) (h' : a many s = .done w u) : v = w ∧ t = u := by
  have hsame := unique ha ⟨few, Outcome.conclusion?_eq_value.mpr h⟩
    ⟨many, Outcome.conclusion?_eq_value.mpr h'⟩
  injection hsame with hv ht
  exact ⟨hv, ht⟩

/-- An action that, with some steps more, ends like another one comes to the same conclusions. -/
theorem shift {t : Store} (hb : Increasing b) (k : Nat)
    (h : ∀ n, (b (n + k) s).conclusion? = (a n t).conclusion?) :
    Concludes b s c ↔ Concludes a t c := by
  constructor
  · rintro ⟨n, hn⟩
    exact ⟨n, (h n).symm.trans (mono hb (Nat.le_add_right n k) hn)⟩
  · rintro ⟨n, hn⟩
    exact ⟨n + k, (h n).trans hn⟩

/-- What has a conclusion with enough steps has no other one. -/
theorem of_conclusion? (ha : Increasing a) {k : Nat} (h : (a k s).conclusion? = some c') :
    Concludes a s c ↔ c = c' := by
  constructor
  · exact fun hc => unique ha hc ⟨k, h⟩
  · rintro rfl
    exact ⟨k, h⟩

/-- Two parts need no more steps than the part that needs more. -/
theorem bind {f : Nat → α → Action β} (ha : Increasing a) (hf : ∀ v, Increasing (f · v))
    {c : Conclusion β} :
    Concludes (fun n => a n >>= f n) s c ↔
      Conclusion.Then (Concludes a s) (fun v t => Concludes (f · v) t) c := by
  constructor
  · rintro ⟨n, hn⟩
    change ((a n >>= f n) s).conclusion? = _ at hn
    rw [bind_apply] at hn
    cases ha : a n s with
    | done v t =>
      rw [ha] at hn
      exact .inl ⟨v, t, ⟨n, by rw [ha]; rfl⟩, n, hn⟩
    | failed e t =>
      rw [ha] at hn
      exact .inr ⟨e.kind, t, ⟨n, by rw [ha]; rfl⟩, (Option.some.inj hn).symm⟩
    | exhausted =>
      rw [ha] at hn
      cases hn
  · rintro (⟨v, t, ⟨n, hn⟩, n', hn'⟩ | ⟨kind, t, ⟨n, hn⟩, rfl⟩)
    · have hfirst := Outcome.conclusion?_eq_value.mp (mono ha (Nat.le_max_left n n') hn)
      refine ⟨max n n', ?_⟩
      change ((a _ >>= f _) s).conclusion? = _
      rw [bind_of_done hfirst]
      exact mono (hf v) (Nat.le_max_right n n') hn'
    · refine ⟨n, ?_⟩
      change ((a n >>= f n) s).conclusion? = _
      rw [bind_apply]
      cases ha : a n s with
      | failed e u =>
        rw [ha] at hn
        cases hn
        rfl
      | _ =>
        rw [ha] at hn
        cases hn

/-- The second part goes on from the value of the first one. -/
theorem bind_value {f : Nat → α → Action β} (ha : Increasing a) (hf : ∀ v, Increasing (f · v))
    {v : α} {t : Store} {c : Conclusion β} (h : Concludes a s (.value v t))
    (hnext : Concludes (f · v) t c) : Concludes (fun n => a n >>= f n) s c :=
  (bind ha hf).mpr (.inl ⟨v, t, h, hnext⟩)

end Action.Concludes

end Lisplet
