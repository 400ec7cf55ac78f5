import Lisplet.Proofs.Isolation.Scopes
import Lisplet.Proofs.Property.Total

/-!
# Walks that end

In a sealed store nothing but a scope has something around it, and that is an older scope or the
core scope, around which there is nothing. So a walk outwards ends, and with it the lookup of every
name.
-/

namespace Lisplet

open Lisplet.Action

/-! ## Actions that end -/


namespace Action

variable {α β : Type} {a : Action α}

/-- The action never runs out of steps. -/
def Ends (a : Action α) : Prop := ∀ s, a s ≠ .exhausted

namespace Ends

theorem of_total (ha : Total a) : Ends a := by
  intro s h
  obtain ⟨v, t, hv⟩ := ha s
  rw [hv] at h
  cases h

theorem ret (v : α) : Ends (pure v) := .of_total (.ret v)

theorem raise (fault : Fault) : Ends (Action.raise (α := α) fault) := fun _ => by
  intro h
  cases h

theorem gets (f : Store → α) : Ends (Action.gets f) := .of_total (.gets f)

theorem update (f : Store → Store) : Ends (Action.update f) := fun _ => by
  intro h
  cases h

theorem within {f : Store → Option α} (hf : ∀ s, f s ≠ none) : Ends (Action.within f) := by
  intro s
  unfold Action.within
  cases h : f s with
  | some v => simp
  | none => exact absurd h (hf s)

theorem bind {f : α → Action β} (ha : Ends a) (hf : ∀ v, Ends (f v)) : Ends (a >>= f) :=
  fun s => bind_ne_exhausted (ha s) fun v t _ => hf v t

theorem map {g : α → β} (ha : Ends a) : Ends (g <$> a) := ha.bind fun v => ret (g v)

theorem keyOf (v : Value) : Ends (Action.keyOf v) := by
  unfold Action.keyOf
  split
  · exact ret _
  · exact raise _

/-- Comparing with a text takes no steps. -/
theorem equal_text (s : Store) (v : Value) (name : String) : s.equal v (.str name) ≠ none := by
  unfold Store.equal Store.equalFollowing
  cases v with
  | str text =>
    by_cases h : text = name <;> simp [Value.equalBy, Value.same, Value.isNumber, Value.text?, h]
  | _ => simp [Value.equalBy, Value.same, Value.isNumber, Value.text?]

theorem anyEqual (name : String) (items : List Value) : Ends (Action.anyEqual (.str name) items) := by
  induction items with
  | nil => exact ret _
  | cons v rest ih =>
    refine (within fun s => equal_text s v name).bind fun found => ?_
    split
    · exact ret _
    · exact ih

theorem anyTaken (r : IteratorRef) (name : String) (items : List Value) :
    Ends (Action.anyTaken r (.str name) items) := by
  induction items with
  | nil => exact ret _
  | cons v rest ih =>
    refine (update _).bind fun _ => (within fun s => equal_text s v name).bind fun found => ?_
    split
    · exact ret _
    · exact ih

theorem contains (container : Value) (name : String) :
    Ends (Action.contains container (.str name)) := by
  unfold Action.contains
  split
  · exact (gets _).bind fun _ => anyEqual _ _
  · exact anyEqual _ _
  · exact (keyOf _).bind fun _ => (gets _).bind fun _ => ret _
  · exact (keyOf _).bind fun _ => ret _
  · exact raise _
  · exact (gets _).bind fun _ => anyTaken _ _ _
  · split
    · exact ret _
    · exact raise _

theorem subscript (container key : Value) : Ends (Action.subscript container key) := by
  have hposition : ∀ (name complaint : String) (items : List Value),
      Ends (Action.atPosition name complaint items key) := by
    intro name complaint items
    unfold Action.atPosition
    split
    · exact raise _
    · dsimp only
      split
      · exact raise _
      · split
        · exact ret _
        · exact raise _
  unfold Action.subscript
  dsimp only
  split
  · exact (gets _).bind fun _ => hposition _ _ _
  · exact hposition _ _ _
  · exact hposition _ _ _
  · refine (gets _).bind fun _ => (keyOf key).bind fun _ => ?_
    split
    · exact ret _
    · exact raise _
  · split
    · exact hposition _ _ _
    · unfold Action.noPositions
      split <;> exact raise _

end Ends

end Action

namespace Property

open Lisplet.Action

theorem attribute?_ends (v : Value) (name : String) : Ends (attribute? v name) :=
  .of_total (attribute?_total v name)

theorem member_ends (v : Value) (name : String) : Ends (member v name) := by
  refine (attribute?_ends v name).bind fun found => ?_
  split
  · exact .ret _
  · exact .raise _

theorem guardValue_ends (name : Value) : Ends (guardValue name) := by
  unfold guardValue
  split
  · refine (Ends.gets _).bind fun denylist => ?_
    split
    · exact .raise _
    · exact .ret _
  · exact (Ends.keyOf name).map

end Property

/-! ## What is around a value -/

namespace Store.Sealed

variable {s : Store}

theorem functionSlot?_parent (h : s.Sealed) (r : FunctionRef) : s.functionSlot? r "parent" = none := by
  unfold Store.functionSlot?
  cases hcell : s.function? r with
  | none => rfl
  | some cell =>
    rw [Option.bind_some]
    split
    · contradiction
    · contradiction
    · exact (h.functions r cell hcell).1.get?_parent

/-- Nothing but a scope has something around it. -/
theorem slot?_parent (h : s.Sealed) {v : Value} (hv : ∀ r, v ≠ .scope r) :
    s.slot? v "parent" = none := by
  cases v with
  | kind k => exact (h.kinds k).get?_parent
  | closure r =>
    simp only [Store.slot?, closureSlot?]
    cases s.closure? r <;> rfl
  | function r => exact h.functionSlot?_parent r
  | method receiver m id =>
    cases m with
    | function r => exact h.functionSlot?_parent r
    | _ => rfl
  | object r =>
    simp only [Store.slot?, Store.objectSlot?, (h.objects r).get?_parent, h.pointClass.get?_parent]
    split
    · contradiction
    · rfl
    · rfl
  | scope r => exact absurd rfl (hv r)
  | _ => rfl

theorem method?_parent (h : s.Sealed) {v : Value} (hv : ∀ r, v ≠ .scope r) :
    Property.method? v "parent" s = .done none s := by
  cases v with
  | scope r => exact absurd rfl (hv r)
  | object r =>
    show Property.classMethod? r "parent" s = _
    unfold Property.classMethod?
    rw [bind_apply]
    dsimp only [Action.gets]
    rw [h.pointClass.get?_parent]
    cases r.cls <;> rfl
  | _ => rfl

/-- What is no scope is refused where the scope around it is asked for. -/
theorem parentOf_ne_done (h : s.Sealed) {v : Value} (hv : ∀ r, v ≠ .scope r) (w : Value)
    (t : Store) : v.parentOf s ≠ .done w t := by
  have hattr : Property.attribute? v "parent" s = .done none s := by
    unfold Property.attribute?
    rw [bind_apply]
    dsimp only [Action.gets]
    rw [h.slot?_parent hv]
    exact h.method?_parent hv
  have hmember : Property.member v "parent" s ≠ .done w t := by
    unfold Property.member
    rw [bind_of_done hattr]
    intro hdone
    cases hdone
  cases v with
  | scope r => exact absurd rfl (hv r)
  | _ => exact hmember

end Store.Sealed

/-- A bound on the steps that a walk outwards from a value takes. -/
def Value.height : Value → Nat
  | .scope r => r.index + 2
  | _ => 1

theorem Value.height_of_confined {v : Value} {i : Nat} (hv : v.Confined i) :
    v.height ≤ i + 1 := by
  cases v with
  | scope r =>
    have hlt := hv.2
    show r.index + 2 ≤ i + 1
    omega
  | _ =>
    show 1 ≤ i + 1
    omega

theorem Value.varsOf_ends (v : Value) : Ends v.varsOf := by
  cases v with
  | scope r => exact .gets _
  | _ => exact Property.member_ends _ _

theorem Value.parentOf_ends (v : Value) : Ends v.parentOf := by
  cases v with
  | scope r => exact .gets _
  | _ => exact Property.member_ends _ _

/-- One step outwards leads to where fewer steps are left. -/
theorem Value.height_of_parentOf {s t : Store} {v w : Value} (hs : s.Sealed)
    (hv : v.Outer s.scopes.size) (h : v.parentOf s = .done w t) :
    w.height < v.height := by
  by_cases hscope : ∃ r, v = .scope r
  · obtain ⟨r, rfl⟩ := hscope
    cases h
    show (s.scope r).parent.height < r.index + 2
    rcases hv with hcore | hr
    · cases hcore
      rw [hs.core]
      decide
    · rcases (hs.scope hr).2.2 with hparent | hparent
      · rw [hparent]
        show 0 + 2 < r.index + 2
        have := hr.1
        omega
      · have := Value.height_of_confined hparent
        omega
  · exact absurd h (hs.parentOf_ne_done (fun r hr => hscope ⟨r, hr⟩) w t)

theorem holderWithin_ends (name : String) (fuel : Nat) {v : Value} {s : Store} (hs : s.Sealed)
    (hv : v.Outer s.scopes.size) (hfuel : v.height ≤ fuel) :
    holderWithin (.str name) fuel v s ≠ .exhausted := by
  induction fuel generalizing v s with
  | zero =>
    have hpos : 0 < v.height := by
      cases v with
      | scope r => exact Nat.succ_pos _
      | _ => exact Nat.one_pos
    omega
  | succ fuel ih =>
    unfold holderWithin
    split
    · exact Ends.ret _ s
    · refine bind_ne_exhausted (Value.varsOf_ends v s) fun vars t hvars => ?_
      have ht := Value.varsOf_secure hv s hs (Nat.le_refl _)
      rw [hvars] at ht
      refine bind_ne_exhausted (Ends.contains vars name t) fun found u hfound => ?_
      have hu := Secure.contains vars (.str name) t ht.1 (Nat.le_refl _)
      rw [hfound] at hu
      split
      · exact Ends.ret _ u
      · refine bind_ne_exhausted (Value.parentOf_ends v u) fun w x hw => ?_
        have hle := Nat.le_trans ht.2.1.size_le hu.2.1.size_le
        have hvu : v.Outer u.scopes.size := Upward.mono hv hle
        have hx := Value.parentOf_secure hvu u hu.1 (Nat.le_refl _)
        rw [hw] at hx
        have hlt := Value.height_of_parentOf hu.1 hvu hw
        exact ih hx.1 hx.2.2 (by omega)

namespace Store.Sealed

variable {s : Store}

theorem outer_of_lt {r : ScopeRef} (hr : r.index < s.scopes.size) :
    (Value.scope r).Outer s.scopes.size := by
  by_cases hzero : r.index = 0
  · exact .inl (congrArg Value.scope (congrArg ScopeRef.mk hzero))
  · exact .inr ⟨hzero, hr⟩

theorem holder?_ne_exhausted (h : s.Sealed) {r : ScopeRef} (hr : r.index < s.scopes.size)
    (name : String) : holder? (.scope r) (.str name) s ≠ .exhausted := by
  refine holderWithin_ends name _ h (outer_of_lt hr) ?_
  show r.index + 2 ≤ s.scopes.size + s.objects.size + s.functions.size + 2
  omega

/-- Whether a name is bound is found out in finitely many steps. -/
theorem isDefined_ne_exhausted (h : s.Sealed) {r : ScopeRef} (hr : r.index < s.scopes.size)
    (name : String) : r.isDefined (.str name) s ≠ .exhausted :=
  bind_ne_exhausted (h.holder?_ne_exhausted hr name) fun _ t _ => Ends.ret _ t

/-- The value of a name is found in finitely many steps. -/
theorem getVar_ne_exhausted (h : s.Sealed) {r : ScopeRef} (hr : r.index < s.scopes.size)
    (name : String) : r.getVar (.str name) s ≠ .exhausted := by
  refine bind_ne_exhausted (Property.guardValue_ends _ s) fun _ t hguard => ?_
  obtain rfl : t = s := (Property.guardValue_reads _).store_eq hguard
  refine bind_ne_exhausted (h.holder?_ne_exhausted hr name) fun found u _ => ?_
  split
  · exact Ends.subscript _ _ u
  · exact Ends.ret _ u

end Store.Sealed

end Lisplet
