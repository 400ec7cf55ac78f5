import Lisplet.Proofs.Property.Additions
import Lisplet.Proofs.Property.Positions
import Lisplet.Proofs.Value.Entries

/-!
# Places in containers

Dictionaries, lists and plain host objects hold values at places, and a key denotes a place in each
of them. A value that is read from a container and is a container itself stands at the place that
the key denotes. A value that is written stands at that place afterwards, and nothing else has
changed.

Main statements: `get_place`, `get_container` and `set_place`.
-/

namespace Lisplet

open Lisplet.Action

/-- A place where a container holds a value. -/
inductive Place where
  | entry (r : DictRef) (key : Key)
  | element (r : ListRef) (n : Nat)
  /-- An attribute of the host object with this number. -/
  | field (object : Nat) (name : String)

/-- The container that the place is in. -/
def Place.owner : Place → Value
  | .entry r _ => .dict r
  | .element r _ => .list r
  | .field i _ => .object ⟨.plain, i⟩

/-- What stands at a place. -/
def Store.at? (s : Store) : Place → Option Value
  | .entry r key => (s.dict r).get? key
  | .element r n => (s.list r)[n]?
  | .field i name => (s.objects.getD i []).get? name

/-- The value is a dictionary, a list or a plain host object of the store. -/
def Store.Has (s : Store) : Value → Prop
  | .dict r => r.index < s.dicts.size
  | .list r => r.index < s.lists.size
  | .object ⟨.plain, i⟩ => i < s.objects.size
  | _ => False

namespace Value

/-- The place that a key denotes in a container. -/
def place? (c key : Value) : Option Place :=
  match c with
  | .dict r => key.key.toOption.map (.entry r)
  | .list r =>
    match Property.index? key with
    | .ok (some (.ofNat n)) => some (.element r n)
    | _ => none
  | .object r => key.text?.map (.field r.index)
  | _ => none

/-- What is written under the key can be read under it: it is no index below zero in a list, and a
text for a host object. -/
def Accepts (c key : Value) : Prop :=
  match c with
  | .list _ => ∀ i, Property.index? key = .ok (some i) → 0 ≤ i
  | .object _ => ∃ name, key = .str name
  | _ => True

end Value

/-- The value was written at the place, and nothing else has changed. -/
structure Store.WrittenAt (p : Place) (v : Value) (s t : Store) : Prop where
  value : t.at? p = some v
  others : ∀ q ≠ p, t.at? q = s.at? q
  rest : t = { s with lists := t.lists, dicts := t.dicts, objects := t.objects }

variable {c d key v : Value} {p : Place} {s t : Store}

theorem Store.Has.owner (hc : s.Has c) (hp : c.place? key = some p) : p.owner = c := by
  cases c with
  | dict r =>
    obtain ⟨k, -, rfl⟩ := Option.map_eq_some_iff.mp hp
    rfl
  | list r =>
    simp only [Value.place?] at hp
    split at hp
    · cases hp
      rfl
    · cases hp
  | object r =>
    obtain ⟨name, -, rfl⟩ := Option.map_eq_some_iff.mp hp
    obtain ⟨cls, i⟩ := r
    cases cls with
    | plain => rfl
    | point => cases hc
  | _ => cases hc

namespace Property

theorem keyOf_eq_done {k : Key} (h : keyOf key s = .done k t) : key.key = .ok k ∧ t = s := by
  unfold keyOf at h
  cases hkey : key.key with
  | ok k' =>
    rw [hkey] at h
    cases h
    exact ⟨rfl, rfl⟩
  | error typeName =>
    rw [hkey] at h
    cases h

theorem place?_dict {r : DictRef} {k : Key} (h : key.key = .ok k) :
    (Value.dict r).place? key = some (.entry r k) := by
  simp [Value.place?, h, Except.toOption]

/-! ## Reading -/

theorem get_dict {r : DictRef} {k : Key} (hguard : guardKey key s = .done () s)
    (hkey : key.key = .ok k) :
    get (.dict r) key s = .done (((s.dict r).get? k).getD .undefined) s := by
  refine (bind_of_done hguard).trans ?_
  have hhash : keyOf key s = .done k s := by
    unfold keyOf
    rw [hkey]
    rfl
  exact bind_of_done hhash

theorem get_object {i : Nat} {name : String} (hguard : guardKey key s = .done () s)
    (hname : key.text? = some name) :
    get (.object ⟨.plain, i⟩) key s =
      .done (((s.objects.getD i []).get? name).getD .undefined) s := by
  refine (bind_of_done hguard).trans ?_
  show attributeOf (.object ⟨.plain, i⟩) key s = _
  unfold attributeOf
  rw [hname]
  have hslot : s.slot? (.object ⟨.plain, i⟩) name = (s.objects.getD i []).get? name := by
    show s.objectSlot? ⟨.plain, i⟩ name = _
    unfold Store.objectSlot? Store.object
    cases (s.objects.getD i []).get? name <;> rfl
  have hread : Action.gets (·.slot? (.object ⟨.plain, i⟩) name) s =
      .done ((s.objects.getD i []).get? name) s := congrArg (Outcome.done · s) hslot
  cases hvalue : (s.objects.getD i []).get? name with
  | some w =>
    rw [hvalue] at hread
    exact bind_of_done (bind_of_done hread)
  | none =>
    rw [hvalue] at hread
    exact bind_of_done ((bind_of_done hread).trans rfl)

/-- What a container has under a key stands at the place that the key denotes. -/
theorem get_place {u : Store} (hc : u.Has c) (hp : c.place? key = some p)
    (hguard : guardKey key s = .done () s) :
    get c key s = .done ((s.at? p).getD .undefined) s := by
  cases c with
  | dict r =>
    obtain ⟨k, hk, rfl⟩ := Option.map_eq_some_iff.mp hp
    refine get_dict hguard ?_
    cases hkey : key.key with
    | ok k' =>
      rw [hkey] at hk
      cases hk
      rfl
    | error typeName =>
      rw [hkey] at hk
      cases hk
  | list r =>
    simp only [Value.place?] at hp
    split at hp
    · next n hindex =>
      cases hp
      exact get_list_at hguard hindex
    · cases hp
  | object r =>
    obtain ⟨name, hname, rfl⟩ := Option.map_eq_some_iff.mp hp
    obtain ⟨cls, i⟩ := r
    cases cls with
    | plain => exact get_object hguard hname
    | point => cases hc
  | _ => cases hc

theorem GivesCallable.ne_container {a : Action (Option Value)} {u : Store} (ha : GivesCallable a)
    (hd : u.Has d) : a s ≠ .done (some d) t := by
  intro h
  obtain ⟨_, _, _, rfl⟩ | ⟨_, rfl⟩ := ha s d t h
  · cases hd
  · cases hd

theorem sequenceMethod?_callable (v key : Value) : GivesCallable (sequenceMethod? v key) := by
  intro s w t h
  obtain ⟨_, _, -, h⟩ := bind_eq_done.mp h
  cases hmethod : key.text?.bind SequenceMethod.ofName? with
  | some m =>
    rw [hmethod] at h
    obtain ⟨_, _, -, h⟩ := bind_eq_done.mp h
    obtain ⟨_, _, -, h⟩ := bind_eq_done.mp h
    cases h
    exact .inr ⟨_, rfl⟩
  | none =>
    rw [hmethod] at h
    cases h

/-- No attribute of a list is a container. -/
theorem attributeOf_list {r : ListRef} {u : Store} (hd : u.Has d) :
    attributeOf (.list r) key s ≠ .done d t := by
  intro h
  unfold attributeOf at h
  cases hname : key.text? with
  | none =>
    rw [hname] at h
    cases h
    cases hd
  | some name =>
    rw [hname] at h
    obtain ⟨value, w, hvalue, h⟩ := bind_eq_done.mp h
    have hcallable : GivesCallable (attribute? (.list r) name) :=
      method?_callable (v := .list r) fun _ _ h => by cases h
    cases value with
    | some value =>
      cases h
      exact hcallable.ne_container hd hvalue
    | none =>
      cases h
      cases hd

/-- A list gives containers under indices only. -/
theorem ofSequence_container {r : ListRef} {items : Array Value} {u : Store} (hd : u.Has d)
    (h : ofSequence (.list r) items key s = .done d t) : ∃ i, index? key = .ok (some i) := by
  unfold ofSequence at h
  obtain ⟨index, w, hindex, h⟩ := bind_eq_done.mp h
  cases hread : index? key with
  | error fault =>
    rw [hread] at hindex
    cases hindex
  | ok i =>
    rw [hread] at hindex
    cases hindex
    cases index with
    | some i => exact ⟨i, rfl⟩
    | none =>
      exfalso
      rcases ite_eq_done.mp h with ⟨-, h⟩ | ⟨-, h⟩
      · cases h
        cases hd
      · obtain ⟨method, x, hmethod, h⟩ := bind_eq_done.mp h
        cases method with
        | some method =>
          cases h
          exact (sequenceMethod?_callable _ _).ne_container hd hmethod
        | none => exact attributeOf_list hd h

/-- A container that is read from a container stands at the place that the key denotes, and nothing
has changed. -/
theorem get_container {u : Store} (hc : s.Has c) (hd : u.Has d) (h : get c key s = .done d t) :
    t = s ∧ ∃ p, c.place? key = some p ∧ s.at? p = some d := by
  have hkey : ¬Forbidden s.denylist key := by
    intro hkey
    obtain ⟨e, he, -⟩ := get_forbidden (v := c) hkey
    cases he.symm.trans h
  have hguard := guardKey_passes hkey
  -- where the key denotes a place, it is enough to look there
  have hplace : ∀ p, c.place? key = some p →
      t = s ∧ ∃ p, c.place? key = some p ∧ s.at? p = some d := by
    intro p hp
    rw [get_place hc hp hguard] at h
    obtain ⟨hvalue, hstore⟩ := Outcome.done.inj h
    refine ⟨hstore.symm, p, hp, ?_⟩
    cases hat : s.at? p with
    | some w =>
      rw [hat] at hvalue
      exact congrArg some hvalue
    | none =>
      rw [hat] at hvalue
      subst hvalue
      cases hd
  cases c with
  | dict r =>
    have hread : (keyOf key >>= fun k => Action.gets (·.dict r) >>= fun content =>
        pure ((content.get? k).getD .undefined)) s = .done d t := (bind_of_done hguard).symm.trans h
    obtain ⟨k, w, hk, -⟩ := bind_eq_done.mp hread
    exact hplace (.entry r k) (place?_dict (keyOf_eq_done hk).1)
  | list r =>
    have hread : ofSequence (.list r) (s.list r) key s = .done d t :=
      (bind_of_done hguard).symm.trans h
    obtain ⟨i, hindex⟩ := ofSequence_container hd hread
    cases i with
    | ofNat n =>
      refine hplace (.element r n) ?_
      simp [Value.place?, hindex]
    | negSucc n =>
      rw [get_list_below hguard hindex (Int.negSucc_lt_zero n)] at h
      cases h
      cases hd
  | object r =>
    cases hname : key.text? with
    | some name =>
      refine hplace (.field r.index name) ?_
      simp [Value.place?, hname]
    | none =>
      have hread : attributeOf (.object r) key s = .done d t := (bind_of_done hguard).symm.trans h
      unfold attributeOf at hread
      rw [hname] at hread
      cases hread
      cases hd
  | _ => cases hc

/-! ## Writing -/

theorem writtenAt_entry {r : DictRef} (hr : r.index < s.dicts.size) (k : Key) (key v : Value) :
    Store.WrittenAt (.entry r k) v s (s.setDict r ((s.dict r).insert k key v)) := by
  refine ⟨?_, fun q hq => ?_, rfl⟩
  · show ((s.setDict r _).dict r).get? k = some v
    rw [Store.dict_setDict hr, if_pos rfl, Dict.get?_insert, if_pos rfl]
  · cases q with
    | entry r' k' =>
      show ((s.setDict r _).dict r').get? k' = (s.dict r').get? k'
      rw [Store.dict_setDict hr]
      by_cases hr' : r' = r
      · subst hr'
        have hk : k' ≠ k := fun h => hq (congrArg (Place.entry r') h)
        rw [if_pos rfl, Dict.get?_insert, if_neg hk]
      · rw [if_neg hr']
    | element r' n => rfl
    | field i name => rfl

theorem writtenAt_element {r : ListRef} {n : Nat} (hr : r.index < s.lists.size)
    (hn : n ≤ (s.list r).size) (v : Value) :
    Store.WrittenAt (.element r n) v s (s.setList r (putAt (s.list r) n v)) := by
  refine ⟨?_, fun q hq => ?_, rfl⟩
  · show ((s.setList r _).list r)[n]? = some v
    rw [Store.list_setList hr, if_pos rfl, getElem?_putAt hn, if_pos rfl]
  · cases q with
    | element r' m =>
      show ((s.setList r _).list r')[m]? = (s.list r')[m]?
      rw [Store.list_setList hr]
      by_cases hr' : r' = r
      · subst hr'
        have hm : m ≠ n := fun h => hq (congrArg (Place.element r') h)
        rw [if_pos rfl, getElem?_putAt hn, if_neg hm]
      · rw [if_neg hr']
    | entry r' k => rfl
    | field i name => rfl

theorem lookup_cons_eq_ite (n other : String) (w : Value) (rest : Attributes) :
    List.lookup other ((n, w) :: rest) = if other = n then some w else List.lookup other rest := by
  rw [List.lookup_cons]
  by_cases h : other = n
  · rw [h, beq_self_eq_true, if_pos rfl]
  · rw [beq_eq_false_iff_ne.mpr h, if_neg h]

theorem get?_set (attrs : Attributes) (name other : String) (v : Value) :
    (attrs.set name v).get? other = if other = name then some v else attrs.get? other := by
  unfold Attributes.get?
  induction attrs with
  | nil => exact lookup_cons_eq_ite name other v []
  | cons a rest ih =>
    obtain ⟨n, w⟩ := a
    unfold Attributes.set
    by_cases hn : n = name
    · subst hn
      rw [if_pos (beq_self_eq_true n), lookup_cons_eq_ite, lookup_cons_eq_ite]
      split <;> rfl
    · rw [if_neg (by simpa using hn), lookup_cons_eq_ite, lookup_cons_eq_ite, ih]
      by_cases h : other = n
      · rw [if_pos h, if_pos h, if_neg fun hname => hn (h.symm.trans hname)]
      · rw [if_neg h, if_neg h]

theorem writtenAt_field {r : ObjectRef} (hr : r.index < s.objects.size) (name : String)
    (v : Value) :
    Store.WrittenAt (.field r.index name) v s (s.setObject r ((s.object r).set name v)) := by
  refine ⟨?_, fun q hq => ?_, rfl⟩
  · show ((s.setObject r _).objects.getD r.index []).get? name = some v
    rw [Store.objects_setObject hr, if_pos rfl, get?_set, if_pos rfl]
  · cases q with
    | field i other =>
      show ((s.setObject r _).objects.getD i []).get? other = (s.objects.getD i []).get? other
      rw [Store.objects_setObject hr]
      by_cases hi : i = r.index
      · subst hi
        have hother : other ≠ name := fun h => hq (congrArg (Place.field r.index) h)
        rw [if_pos rfl, get?_set, if_neg hother]
        rfl
      · rw [if_neg hi]
    | entry r' k => rfl
    | element r' n => rfl

/-- A value that was written into a container stands at the place that the key denotes, and nothing
else has changed. -/
theorem set_place (hc : s.Has c) (haccepts : c.Accepts key) (h : set c key v s = .done () t) :
    ∃ p, c.place? key = some p ∧ Store.WrittenAt p v s t := by
  have hguard := guardKey_passes (not_forbidden_of_set h)
  cases c with
  | dict r =>
    have hwrite : (keyOf key >>= fun k => Action.gets (·.dict r) >>= fun content =>
        Action.update (·.setDict r (content.insert k key v))) s = .done () t :=
      (bind_of_done hguard).symm.trans h
    obtain ⟨k, u, hk, hput⟩ := bind_eq_done.mp hwrite
    obtain ⟨hkey, rfl⟩ := keyOf_eq_done hk
    cases hput
    exact ⟨.entry r k, place?_dict hkey, writtenAt_entry hc k key v⟩
  | list r =>
    obtain ⟨i, n, hindex, hplace, rfl⟩ := set_list_eq_done h
    have hi := haccepts i hindex
    obtain ⟨rfl, hn⟩ : i = n ∧ n ≤ (s.list r).size := by
      unfold Denotes at hplace
      omega
    refine ⟨.element r n, ?_, writtenAt_element hc hn v⟩
    simp only [Value.place?, hindex]
  | object r =>
    obtain ⟨name, rfl⟩ := haccepts
    have hwrite : setNamed (.object r) (.str name) v s = .done () t :=
      (bind_of_done hguard).symm.trans h
    cases hwrite
    refine ⟨.field r.index name, rfl, ?_⟩
    have hr : r.index < s.objects.size := by
      obtain ⟨cls, i⟩ := r
      cases cls with
      | plain => exact hc
      | point => cases hc
    exact writtenAt_field hr name v
  | _ => cases hc

end Property

end Lisplet
