import Lisplet.Proofs.Isolation.Sealed
import Lisplet.Proofs.Store.Reading

/-!
# Secure actions

An action is secure from `n` scopes on if in every sealed store with at least so many scopes it
leaves behind a sealed store that extends the one it started from, and the value it gives satisfies
a condition that depends on the number of scopes there are then. There is one rule for each way to
build an action; a value that was confined stays so, because scopes are only added.

To speak about all states that a run passes through, a run can be watched: a watched run stops, with
an error of its own, at the first state that satisfies a test. One action follows another if it ends
in the same way, or the other one was stopped and it ends with an extension of the store that the
other one was stopped with.
-/

namespace Lisplet

/-! ## Conditions on values -/

/-- A condition on values that holds with more scopes if it holds with fewer. -/
class Upward {α : Type} (Q : Nat → α → Prop) : Prop where
  mono : ∀ {n m : Nat} {a : α}, Q n a → n ≤ m → Q m a

/-- No condition. -/
def Any {α : Type} (_ : Nat) (_ : α) : Prop := True

/-- The value of an optional result is confined. -/
def OptionConfined (n : Nat) (o : Option Value) : Prop := ∀ v, o = some v → v.Confined n

instance {α : Type} : Upward (Any (α := α)) := ⟨fun _ _ => trivial⟩

instance : Upward Value.Confined := ⟨Value.Confined.mono⟩

instance : Upward AllConfined := ⟨AllConfined.mono⟩

instance : Upward Dict.Confined := ⟨Dict.Confined.mono⟩

instance : Upward OptionConfined := ⟨fun h hle v hv => (h v hv).mono hle⟩

theorem OptionConfined.none {n : Nat} : OptionConfined n none := by
  intro v hv
  cases hv

theorem OptionConfined.some {n : Nat} {v : Value} (hv : v.Confined n) :
    OptionConfined n (some v) := by
  intro w hw
  cases hw
  exact hv

/-! ## Outcomes -/

/-- The store at the end is sealed and extends the one at the start, and the value satisfies a
condition. -/
def Outcome.Secure {α : Type} (Q : Nat → α → Prop) (s : Store) : Outcome α → Prop
  | .done v t => t.Sealed ∧ s.Extends t ∧ Q t.scopes.size v
  | .failed _ t => t.Sealed ∧ s.Extends t
  | .exhausted => True

theorem Outcome.Secure.trans {α : Type} {Q : Nat → α → Prop} {s t : Store} {o : Outcome α}
    (h : s.Extends t) (ho : o.Secure Q t) : o.Secure Q s := by
  cases o with
  | done v u => exact ⟨ho.1, h.trans ho.2.1, ho.2.2⟩
  | failed e u => exact ⟨ho.1, h.trans ho.2⟩
  | exhausted => trivial

namespace Action

variable {α β : Type} {Q : Nat → α → Prop} {R : Nat → β → Prop} {n m : Nat}

/-- From `n` scopes on the action keeps stores sealed, only extends them, and gives a value that
satisfies a condition. -/
def Secure (n : Nat) (a : Action α) (Q : Nat → α → Prop) : Prop :=
  ∀ s : Store, s.Sealed → n ≤ s.scopes.size → (a s).Secure Q s

/-- What only reads leaves the store sealed. -/
theorem Reads.secure {a : Action α} (ha : Reads a) : Secure n a Any := by
  intro s hs _
  have hend := ha s
  cases hrun : a s with
  | done v t =>
    rw [hrun] at hend
    obtain rfl : t = s := hend
    exact ⟨hs, .refl t, trivial⟩
  | failed e t =>
    rw [hrun] at hend
    obtain rfl : t = s := hend.1
    exact ⟨hs, .refl t⟩
  | exhausted => trivial

namespace Secure

theorem exhausted : Secure n (Action.exhausted (α := α)) Q := fun _ _ _ => trivial

theorem ret {a : α} [Upward Q] (h : Q n a) : Secure n (pure a) Q :=
  fun s hs hn => ⟨hs, .refl s, Upward.mono h hn⟩

theorem fail (e : Failure) : Secure n (Action.fail (α := α) e) Q := fun s hs _ => ⟨hs, .refl s⟩

theorem raise (fault : Fault) : Secure n (Action.raise (α := α) fault) Q := fail _

theorem gets {f : Store → α} (h : ∀ s : Store, s.Sealed → n ≤ s.scopes.size →
    Q s.scopes.size (f s)) : Secure n (Action.gets f) Q :=
  fun s hs hn => ⟨hs, .refl s, h s hs hn⟩

theorem compute {f : Store → Except Fault α} (h : ∀ s : Store, s.Sealed → n ≤ s.scopes.size →
    ∀ a, f s = .ok a → Q s.scopes.size a) : Secure n (Action.compute f) Q := by
  intro s hs hn
  unfold Action.compute
  cases hf : f s with
  | ok a => exact ⟨hs, .refl s, h s hs hn a hf⟩
  | error fault => exact ⟨hs, .refl s⟩

theorem ofExcept {x : Except Fault α} [Upward Q] (h : ∀ a, x = .ok a → Q n a) :
    Secure n (Action.ofExcept x) Q := by
  cases x with
  | ok a => exact ret (h a rfl)
  | error fault => exact raise fault

/-- A change that does not touch the table of scopes. -/
theorem update {f : Store → Store} (hscopes : ∀ s, (f s).scopes = s.scopes)
    (h : ∀ s : Store, s.Sealed → n ≤ s.scopes.size → (f s).Sealed) :
    Secure n (Action.update f) Any :=
  fun s hs hn => ⟨h s hs hn, .of_scopes_eq (hscopes s), trivial⟩

/-- A change that gives a value and does not touch the table of scopes. -/
theorem make {f : Store → α × Store} (hscopes : ∀ s, (f s).2.scopes = s.scopes)
    (h : ∀ s : Store, s.Sealed → n ≤ s.scopes.size →
      (f s).2.Sealed ∧ Q s.scopes.size (f s).1) : Secure n (Action.make f) Q := by
  intro s hs hn
  obtain ⟨hsealed, hvalue⟩ := h s hs hn
  refine ⟨hsealed, .of_scopes_eq (hscopes s), ?_⟩
  rw [hscopes s]
  exact hvalue

theorem mono {a : Action α} (ha : Secure n a Q) (h : n ≤ m) : Secure m a Q :=
  fun s hs hm => ha s hs (Nat.le_trans h hm)

theorem weaken {a : Action α} {Q' : Nat → α → Prop} (ha : Secure n a Q)
    (h : ∀ m v, Q m v → Q' m v) : Secure n a Q' := by
  intro s hs hn
  have hend := ha s hs hn
  cases hout : a s with
  | done v t =>
    rw [hout] at hend
    exact ⟨hend.1, hend.2.1, h _ _ hend.2.2⟩
  | failed e t =>
    rw [hout] at hend
    exact hend
  | exhausted => trivial

theorem any {a : Action α} (ha : Secure n a Q) : Secure n a Any := ha.weaken fun _ _ _ => trivial

/-- What comes second may count on the value of the first part, and on at least as many scopes. -/
theorem bind {a : Action α} {f : α → Action β} (ha : Secure n a Q)
    (hf : ∀ m, n ≤ m → ∀ v, Q m v → Secure m (f v) R) : Secure n (a >>= f) R := by
  intro s hs hn
  have hend := ha s hs hn
  rw [bind_apply]
  cases hout : a s with
  | done v t =>
    rw [hout] at hend
    obtain ⟨hsealed, hext, hv⟩ := hend
    exact (hf _ (Nat.le_trans hn hext.size_le) v hv t hsealed (Nat.le_refl _)).trans hext
  | failed e t =>
    rw [hout] at hend
    exact hend
  | exhausted => trivial

theorem map {a : Action α} {g : α → β} [Upward R] (ha : Secure n a Q)
    (hg : ∀ m v, Q m v → R m (g v)) : Secure n (g <$> a) R :=
  ha.bind fun m _ v hv => ret (hg m v hv)

theorem framed {a : Action α} (frame : Frame) (ha : Secure n a Q) :
    Secure n (Action.framed frame a) Q := by
  intro s hs hn
  have hend := ha s hs hn
  unfold Action.framed
  cases hout : a s with
  | done v t =>
    rw [hout] at hend
    exact hend
  | failed e t =>
    rw [hout] at hend
    exact hend
  | exhausted => trivial

end Secure

/-! ## Following -/

end Action

/-- The class of the error that stops a watched run. -/
def pauseKind : ErrorKind := .other "pause"

/-- The second outcome is the first one, or the first one was stopped and the second one is secure
from the store it was stopped with. -/
def Outcome.Follows {α : Type} (Q : Nat → α → Prop) (s : Store) (first second : Outcome α) : Prop :=
  (first = second ∧ second.Secure Q s) ∨
    ∃ e t, first = .failed e t ∧ e.kind = pauseKind ∧ t.Sealed ∧ s.Extends t ∧ second.Secure Q t

theorem Outcome.Follows.trans {α : Type} {Q : Nat → α → Prop} {s t : Store} {o o' : Outcome α}
    (h : s.Extends t) (ho : o.Follows Q t o') : o.Follows Q s o' := by
  rcases ho with ⟨heq, hsecure⟩ | ⟨e, u, hfail, hkind, hsealed, hext, hsecure⟩
  · exact .inl ⟨heq, hsecure.trans h⟩
  · exact .inr ⟨e, u, hfail, hkind, hsealed, h.trans hext, hsecure⟩

/-- However the first outcome was stopped, the second one is secure. -/
theorem Outcome.Follows.secure {α : Type} {Q : Nat → α → Prop} {s : Store} {o o' : Outcome α}
    (h : o.Follows Q s o') : o'.Secure Q s := by
  rcases h with ⟨_, hsecure⟩ | ⟨e, t, _, _, _, hext, hsecure⟩
  · exact hsecure
  · exact hsecure.trans hext

namespace Action

variable {α β : Type} {Q : Nat → α → Prop} {R : Nat → β → Prop} {n m : Nat}

/-- From `n` scopes on, the second action follows the first one. -/
def Follows (n : Nat) (a b : Action α) (Q : Nat → α → Prop) : Prop :=
  ∀ s : Store, s.Sealed → n ≤ s.scopes.size → (a s).Follows Q s (b s)

theorem Secure.follows {a : Action α} (ha : Secure n a Q) : Follows n a a Q :=
  fun s hs hn => .inl ⟨rfl, ha s hs hn⟩

namespace Follows

theorem secure {a b : Action α} (h : Follows n a b Q) : Secure n b Q :=
  fun s hs hn => (h s hs hn).secure

theorem mono {a b : Action α} (h : Follows n a b Q) (hle : n ≤ m) : Follows m a b Q :=
  fun s hs hm => h s hs (Nat.le_trans hle hm)

theorem weaken {a b : Action α} {Q' : Nat → α → Prop} (h : Follows n a b Q)
    (hQ : ∀ m v, Q m v → Q' m v) : Follows n a b Q' := by
  intro s hs hn
  rcases h s hs hn with ⟨heq, _⟩ | ⟨e, t, hfail, hkind, hsealed, hext, hsecure⟩
  · exact .inl ⟨heq, h.secure.weaken hQ s hs hn⟩
  · refine .inr ⟨e, t, hfail, hkind, hsealed, hext, ?_⟩
    cases hb : b s with
    | done v u =>
      rw [hb] at hsecure
      exact ⟨hsecure.1, hsecure.2.1, hQ _ _ hsecure.2.2⟩
    | failed e' u =>
      rw [hb] at hsecure
      exact hsecure
    | exhausted => trivial

/-- Once the first action has been stopped, what comes second does not happen to it, and the other
one goes on from an extension of the store it was stopped with. -/
theorem bind {a b : Action α} {f g : α → Action β} (h : Follows n a b Q)
    (hf : ∀ m, n ≤ m → ∀ v, Q m v → Follows m (f v) (g v) R) :
    Follows n (a >>= f) (b >>= g) R := by
  intro s hs hn
  rw [bind_apply, bind_apply]
  rcases h s hs hn with ⟨heq, hsecure⟩ | ⟨e, t, hfail, hkind, hsealed, hext, hsecure⟩
  · rw [heq]
    cases hb : b s with
    | done v t =>
      rw [hb] at hsecure
      obtain ⟨hsealed, hext, hv⟩ := hsecure
      exact (hf _ (Nat.le_trans hn hext.size_le) v hv t hsealed (Nat.le_refl _)).trans hext
    | failed e t =>
      rw [hb] at hsecure
      exact .inl ⟨rfl, hsecure⟩
    | exhausted => exact .inl ⟨rfl, trivial⟩
  · rw [hfail]
    refine .inr ⟨e, t, rfl, hkind, hsealed, hext, ?_⟩
    cases hb : b s with
    | done v u =>
      rw [hb] at hsecure
      obtain ⟨hsealed', hext', hv⟩ := hsecure
      have hle : n ≤ u.scopes.size := Nat.le_trans hn (Nat.le_trans hext.size_le hext'.size_le)
      exact ((hf _ hle v hv u hsealed' (Nat.le_refl _)).secure).trans hext'
    | failed e' u =>
      rw [hb] at hsecure
      exact hsecure
    | exhausted => trivial

/-- An error that stops a run takes frames along like any other. -/
theorem framed {a b : Action α} (frame : Frame) (h : Follows n a b Q) :
    Follows n (Action.framed frame a) (Action.framed frame b) Q := by
  intro s hs hn
  have hb := (h.secure.framed frame) s hs hn
  rcases h s hs hn with ⟨heq, _⟩ | ⟨e, t, hfail, hkind, hsealed, hext, hsecure⟩
  · refine .inl ⟨?_, hb⟩
    unfold Action.framed
    rw [heq]
  · refine .inr ⟨e.push frame, t, ?_, hkind, hsealed, hext, ?_⟩
    · unfold Action.framed
      rw [hfail]
    · unfold Action.framed
      cases hout : b s with
      | done v u =>
        rw [hout] at hsecure
        exact hsecure
      | failed e' u =>
        rw [hout] at hsecure
        exact hsecure
      | exhausted => trivial

/-- Errors of another class are caught; those that stop a run are not. -/
theorem catching {a b : Action α} {caught : ErrorKind → Bool} {instead : α} [Upward Q]
    (h : Follows n a b Q) (hcaught : caught pauseKind = false) (hinstead : Q n instead) :
    Follows n (Action.catching caught instead a) (Action.catching caught instead b) Q := by
  intro s hs hn
  have hsecure' : ∀ (t : Store) (o : Outcome α), n ≤ t.scopes.size → o.Secure Q t → b s = o →
      (Action.catching caught instead b s).Secure Q t := by
    intro t o hle hsecure ho
    unfold Action.catching
    rw [ho]
    cases o with
    | done v u => exact hsecure
    | failed e u =>
      dsimp only
      split
      · obtain ⟨hkept, hext⟩ := hsecure.1.keep e
        have hle' : n ≤ (u.keep e).scopes.size :=
          Nat.le_trans hle (hsecure.2.trans hext).size_le
        exact ⟨hkept, hsecure.2.trans hext, Upward.mono hinstead hle'⟩
      · exact hsecure
    | exhausted => trivial
  rcases h s hs hn with ⟨heq, hsecure⟩ | ⟨e, t, hfail, hpause, hsealed, hext, hsecure⟩
  · refine .inl ⟨?_, hsecure' s _ hn hsecure rfl⟩
    unfold Action.catching
    rw [heq]
  · have hle : n ≤ t.scopes.size := Nat.le_trans hn hext.size_le
    refine .inr ⟨e, t, ?_, hpause, hsealed, hext, hsecure' t _ hle hsecure rfl⟩
    unfold Action.catching
    rw [hfail]
    dsimp only
    rw [hpause, hcaught, if_neg Bool.false_ne_true]

end Follows

end Action

end Lisplet
