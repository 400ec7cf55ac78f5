import Lisplet.Scope
import Lisplet.Proofs.Property.Guards
import Mathlib.Data.Finset.Card

/-!
# Looking up names

Looking up a name changes nothing that a script can see, except that an iterator that stands in the
place of variables gives up elements. If the scopes are as they are built, each with a dictionary of
variables and the last one without a scope around it, a lookup always ends with a value and changes
nothing at all.
-/

namespace Lisplet

open Lisplet.Action (Keeps)

/-- The second store differs from the first at most in what its iterators have left and in the next
number for an identity: no list, dictionary, scope, closure, object or function has changed. -/
def Store.Undisturbed (s t : Store) : Prop :=
  t = { s with iterators := t.iterators, nextId := t.nextId }

instance : IsPreorder Store Store.Undisturbed where
  refl _ := rfl
  trans s t u h h' := by
    unfold Store.Undisturbed at *
    rw [h'] at *
    rw [h]

theorem Store.Undisturbed.denylist {s t : Store} (h : s.Undisturbed t) :
    t.denylist = s.denylist := by
  unfold Undisturbed at h
  rw [h]

namespace Action

variable {α : Type}

/-- The action only looks at the store, and is never refused for a forbidden access. -/
abbrev Looks (a : Action α) : Prop := Keeps Store.Undisturbed a

theorem newMethod_looks (receiver : Value) (m : Method) : Looks (newMethod receiver m) :=
  Keeps.bind (.make fun _ => rfl) fun _ => .ret _

/-! ## Containers -/

theorem anyEqual_looks (value : Value) (items : List Value) : Looks (anyEqual value items) := by
  induction items with
  | nil => exact .ret _
  | cons v rest ih =>
    refine (Keeps.within _).bind fun equal => ?_
    split
    · exact .ret _
    · exact ih

theorem anyTaken_looks (r : IteratorRef) (value : Value) (items : List Value) :
    Looks (anyTaken r value items) := by
  induction items with
  | nil => exact .ret _
  | cons v rest ih =>
    refine Keeps.bind (.update fun _ => rfl) fun _ => (Keeps.within _).bind fun equal => ?_
    split
    · exact .ret _
    · exact ih

theorem containsBytes_looks (data : List UInt8) (value : Value) :
    Looks (containsBytes data value) := by
  unfold containsBytes
  split
  · exact .ret _
  · split
    · exact .ret _
    · exact .raise (by simp [Fault.kind])
  · exact .raise (by simp [Fault.kind])

theorem containsText_looks (text : String) (part : Value) : Looks (containsText text part) := by
  unfold containsText
  split
  · exact .ret _
  · exact .raise (by simp [Fault.kind])

theorem contains_looks (container value : Value) : Looks (contains container value) := by
  unfold contains
  split
  · exact (Keeps.gets _).bind fun _ => anyEqual_looks _ _
  · exact anyEqual_looks _ _
  · exact (Keeps.keyOf value).bind fun _ => (Keeps.gets _).bind fun _ => .ret _
  · exact (Keeps.keyOf value).bind fun _ => .ret _
  · exact containsBytes_looks _ _
  · exact (Keeps.gets _).bind fun _ => anyTaken_looks _ _ _
  · split
    · exact containsText_looks _ _
    · exact .raise (by simp [Fault.kind])

theorem atPosition_looks (name complaint : String) (items : List α) (key : Value) :
    Looks (atPosition name complaint items key) := by
  unfold atPosition
  split
  · exact .raise (by simp [Fault.kind])
  · dsimp only
    split
    · exact .raise (by simp [Fault.kind])
    · split
      · exact .ret _
      · exact .raise (by simp [Fault.kind])

theorem noPositions_looks (v : Value) : Looks (noPositions (α := α) v) := by
  unfold noPositions
  split <;> exact .raise (by simp [Fault.kind])

theorem subscript_looks (container key : Value) : Looks (subscript container key) := by
  unfold subscript
  dsimp only
  split
  · exact (Keeps.gets _).bind fun _ => atPosition_looks _ _ _ _
  · exact atPosition_looks _ _ _ _
  · exact atPosition_looks _ _ _ _
  · refine (Keeps.gets _).bind fun d => (Keeps.keyOf key).bind fun k => ?_
    split
    · exact .ret _
    · exact .raise (by simp [Fault.kind])
  · split
    · exact atPosition_looks _ _ _ _
    · exact noPositions_looks _

end Action

/-! ## Slots of what acts as a scope -/

namespace Property

open Lisplet.Action

/-- Reading a method makes at most a new identity, unless it is the function inside a form or a
bound sequence method. -/
theorem method?_looks {name : String} (v : Value) (hfn : name ≠ "fn") (hfunc : name ≠ "func") :
    Looks (method? v name) := by
  intro s
  obtain ⟨a, hread, heq⟩ := method?_read v name s
  rw [heq]
  cases hread with
  | absent | shared _ => exact Keeps.ret _ s
  | fresh m => exact (newMethod_looks _ m).map s
  | given _ _ _ hname _ | builtIn _ _ hname => exact absurd hname hfn
  | unbound _ hname => exact absurd hname hfunc

theorem member_looks {name : String} (v : Value) (hfn : name ≠ "fn") (hfunc : name ≠ "func") :
    Looks (member v name) := by
  refine Keeps.bind (Keeps.bind (.gets _) fun slot => ?_) fun value => ?_
  · cases slot with
    | some value => exact .ret _
    | none => exact method?_looks v hfn hfunc
  · cases value with
    | some value => exact .ret _
    | none => exact .raise (by simp [Store.missingAttribute_kind])

end Property

theorem Value.varsOf_looks (v : Value) : Action.Looks v.varsOf := by
  cases v with
  | scope r => exact .gets _
  | _ => exact Property.member_looks _ (by decide) (by decide)

theorem Value.parentOf_looks (v : Value) : Action.Looks v.parentOf := by
  cases v with
  | scope r => exact .gets _
  | _ => exact Property.member_looks _ (by decide) (by decide)

/-! ## Lookups -/

theorem holderWithin_looks (name : Value) (fuel : Nat) (scope : Value) :
    Action.Looks (holderWithin name fuel scope) := by
  induction fuel generalizing scope with
  | zero => exact .exhausted
  | succ fuel ih =>
    unfold holderWithin
    split
    · exact .ret _
    · refine (Value.varsOf_looks scope).bind fun vars => ?_
      refine (Action.contains_looks vars name).bind fun found => ?_
      split
      · exact .ret _
      · exact (Value.parentOf_looks scope).bind fun outer => ih outer

theorem holderWithin_scope (name : Value) (fuel : Nat) (r : ScopeRef) :
    holderWithin name (fuel + 1) (.scope r) = (do
      let vars ← (Value.scope r).varsOf
      if ← Action.contains vars name then return some vars
      else holderWithin name fuel (← (Value.scope r).parentOf)) := rfl

theorem holder?_looks (scope name : Value) : Action.Looks (holder? scope name) :=
  Keeps.bind (.gets _) fun fuel => holderWithin_looks name fuel scope

namespace ScopeRef

theorem getVar_forbidden {r : ScopeRef} {name : String} {s : Store} (h : name ∈ s.denylist) :
    r.getVar (.str name) s = .failed (.fresh (.forbidden name)) s := by
  have hguard := Property.guardValue_str name s
  rw [if_pos h] at hguard
  exact Action.bind_of_failed hguard

/-- A lookup of a name that is not on the denylist disturbs nothing, however it ends, and is not
refused. -/
theorem getVar_undisturbed {r : ScopeRef} {name : String} {s : Store} (h : name ∉ s.denylist) :
    (r.getVar (.str name) s).Keeps Store.Undisturbed s := by
  have hguard := Property.guardValue_str name s
  rw [if_neg h] at hguard
  unfold getVar
  rw [Action.bind_of_done hguard]
  refine Keeps.bind (holder?_looks _ _) (fun holder => ?_) s
  cases holder with
  | some vars => exact Action.subscript_looks vars _
  | none => exact .ret _

end ScopeRef

/-! ## Chains of scopes -/

theorem Action.subscript_dict_apply (d : DictRef) (name : String) (s : Store) :
    Action.subscript (.dict d) (.str name) s =
      (match (s.dict d).get? (Key.ofText name) with
        | some v => pure v
        | none => Action.raise (.raised (.other "KeyError") [.str name]) : Action Value) s :=
  rfl

/-- The value that a dictionary has for a text. -/
theorem Action.subscript_dict {d : DictRef} {name : String} {value : Value} {s : Store}
    (hget : (s.dict d).get? (Key.ofText name) = some value) :
    Action.subscript (.dict d) (.str name) s = .done value s := by
  rw [Action.subscript_dict_apply, hget]
  rfl

/-- From a value outwards there are so many scopes, each with a dictionary of variables, and then
nil. -/
inductive Store.Chain (s : Store) : Nat → Value → Prop where
  | nil : Chain s 0 .nil
  | scope {r : ScopeRef} {d : DictRef} {n : Nat} (hvars : (s.scope r).vars = .dict d)
      (h : Chain s n (s.scope r).parent) : Chain s (n + 1) (.scope r)

/-- Every scope is the same in both stores and binds the same names to the same values. -/
structure Store.SameNames (s t : Store) : Prop where
  denylist : t.denylist = s.denylist
  scopes : t.scopes = s.scopes
  entries : ∀ q d, (s.scope q).vars = .dict d → ∀ key, (t.dict d).get? key = (s.dict d).get? key

namespace Store.SameNames

variable {s t : Store}

theorem refl (s : Store) : SameNames s s := ⟨rfl, rfl, fun _ _ _ _ => rfl⟩

theorem scope (h : SameNames s t) (r : ScopeRef) : t.scope r = s.scope r := by
  unfold Store.scope
  rw [h.scopes]

end Store.SameNames

namespace Store.Chain

variable {s t : Store} {n : Nat} {v : Value}

/-- There is only one way outwards. -/
theorem unique {m : Nat} (h : Chain s n v) (h' : Chain s m v) : n = m := by
  induction h generalizing m with
  | nil =>
    cases h'
    rfl
  | scope _ _ ih =>
    cases h' with
    | scope _ h' => rw [ih h']

theorem index_lt {r : ScopeRef} (h : Chain s n (.scope r)) : r.index < s.scopes.size := by
  cases h with
  | scope hvars _ =>
    by_contra hge
    unfold Store.scope at hvars
    rw [Array.getD_eq_getD_getElem?, Array.getElem?_eq_none (Nat.le_of_not_lt hge)] at hvars
    cases hvars

/-- The places of the scopes along a chain are all different. -/
theorem indices (h : Chain s n v) : ∃ places : List Nat, places.length = n ∧ places.Nodup ∧
    ∀ i ∈ places, i < s.scopes.size ∧ ∃ m ≤ n, Chain s m (.scope ⟨i⟩) := by
  induction h with
  | nil => exact ⟨[], rfl, List.nodup_nil, by simp⟩
  | @scope r d n hvars h ih =>
    obtain ⟨places, hlength, hnodup, hplaces⟩ := ih
    have hr : Chain s (n + 1) (.scope r) := .scope hvars h
    refine ⟨r.index :: places, by simp [hlength], List.nodup_cons.mpr ⟨?_, hnodup⟩, ?_⟩
    · -- a scope that comes again would have two distances from the end
      intro hmem
      obtain ⟨_, m, hm, hchain⟩ := hplaces _ hmem
      have := hr.unique hchain
      omega
    · intro i hi
      rcases List.mem_cons.mp hi with rfl | hi
      · exact ⟨hr.index_lt, n + 1, Nat.le_refl _, hr⟩
      · obtain ⟨hlt, m, hm, hchain⟩ := hplaces i hi
        exact ⟨hlt, m, by omega, hchain⟩

/-- A chain is no longer than the store has scopes. -/
theorem length_le (h : Chain s n v) : n ≤ s.scopes.size := by
  obtain ⟨places, hlength, hnodup, hplaces⟩ := h.indices
  have hsub : places.toFinset ⊆ Finset.range s.scopes.size := by
    intro i hi
    exact Finset.mem_range.mpr (hplaces i (List.mem_toFinset.mp hi)).1
  have hcard := Finset.card_le_card hsub
  rw [List.toFinset_card_of_nodup hnodup, Finset.card_range, hlength] at hcard
  exact hcard

/-- Along a chain a name is found in a dictionary that has it, or it is not found; and it is found
in the same dictionary where the scopes bind the same names. -/
theorem holderWithin_same {fuel fuel' : Nat} (name : String) (h : Chain s n v)
    (hsame : s.SameNames t) (hfuel : n < fuel) (hfuel' : n < fuel') :
    (Lisplet.holderWithin (.str name) fuel v s = .done none s ∧
      Lisplet.holderWithin (.str name) fuel' v t = .done none t) ∨
    ∃ d w, Lisplet.holderWithin (.str name) fuel v s = .done (some (.dict d)) s ∧
      Lisplet.holderWithin (.str name) fuel' v t = .done (some (.dict d)) t ∧
      (s.dict d).get? (Key.ofText name) = some w ∧ (t.dict d).get? (Key.ofText name) = some w := by
  induction h generalizing fuel fuel' with
  | nil =>
    obtain ⟨fuel, rfl⟩ : ∃ k, fuel = k + 1 := ⟨fuel - 1, by omega⟩
    obtain ⟨fuel', rfl⟩ : ∃ k, fuel' = k + 1 := ⟨fuel' - 1, by omega⟩
    exact .inl ⟨rfl, rfl⟩
  | @scope r d n hvars h ih =>
    obtain ⟨fuel, rfl⟩ : ∃ k, fuel = k + 1 := ⟨fuel - 1, by omega⟩
    obtain ⟨fuel', rfl⟩ : ∃ k, fuel' = k + 1 := ⟨fuel' - 1, by omega⟩
    have hscope := hsame.scope r
    have hentry := hsame.entries r d hvars (Key.ofText name)
    have hvarsOf : ∀ u : Store, u.scope r = s.scope r →
        (Value.scope r).varsOf u = .done (.dict d) u :=
      fun u hu => congrArg (Outcome.done · u) ((congrArg Scope.vars hu).trans hvars)
    have hcontains : ∀ u : Store, Action.contains (.dict d) (.str name) u =
        .done ((u.dict d).contains (Key.ofText name)) u := fun _ => rfl
    have hparent : (Value.scope r).parentOf t = .done (s.scope r).parent t :=
      congrArg (Outcome.done · t) (congrArg Scope.parent hscope)
    rw [holderWithin_scope, holderWithin_scope, Action.bind_of_done (hvarsOf s rfl),
      Action.bind_of_done (hvarsOf t hscope), Action.bind_of_done (hcontains s),
      Action.bind_of_done (hcontains t)]
    unfold Dict.contains
    rw [hentry]
    cases hget : (s.dict d).get? (Key.ofText name) with
    | some w => exact .inr ⟨d, w, rfl, rfl, hget, hentry.trans hget⟩
    | none =>
      have hrest := @ih fuel fuel' (by omega) (by omega)
      rw [← Action.bind_of_done (f := fun v => Lisplet.holderWithin (.str name) fuel' v) hparent]
        at hrest
      exact hrest

theorem holderWithin {fuel : Nat} (name : String) (h : Chain s n v) (hfuel : n < fuel) :
    Lisplet.holderWithin (.str name) fuel v s = .done none s ∨
      ∃ d w, Lisplet.holderWithin (.str name) fuel v s = .done (some (.dict d)) s ∧
        (s.dict d).get? (Key.ofText name) = some w := by
  rcases h.holderWithin_same name (.refl s) hfuel hfuel with ⟨hnone, -⟩ | ⟨d, w, hsome, -, hget, -⟩
  · exact .inl hnone
  · exact .inr ⟨d, w, hsome, hget⟩

/-- Along a chain every lookup ends with a value and changes nothing. -/
theorem getVar {r : ScopeRef} {name : String} (h : Chain s n (.scope r)) (hname : name ∉ s.denylist) :
    ∃ w, r.getVar (.str name) s = .done w s := by
  have hguard := Property.guardValue_str name s
  rw [if_neg hname] at hguard
  have hfuel : n < s.chainLength := by
    have := h.length_le
    unfold Store.chainLength
    omega
  unfold ScopeRef.getVar
  rw [Action.bind_of_done hguard]
  have hholder := h.holderWithin name hfuel
  rcases hholder with hnone | ⟨d, w, hsome, hget⟩
  · exact ⟨.undefined, Action.bind_of_done hnone⟩
  · exact ⟨w, (Action.bind_of_done hsome).trans (Action.subscript_dict hget)⟩

end Store.Chain

end Lisplet
