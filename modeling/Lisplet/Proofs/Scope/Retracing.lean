import Lisplet.Proofs.Property.Retracing
import Lisplet.Proofs.Scope.Denylist

/-!
# Writing and reading back

What was written along a clear path is read back along it, and the same holds of a dotted name in a
chain of scopes. The variable of the name is found again because the write goes to a container that
is no scope's dictionary of variables, so that all names still have the values that they had.

Main statement: `write_spec`.
-/

namespace Lisplet

open Lisplet.Action Property

variable {s t : Store} {v w x : Value} {p : Place} {r : ScopeRef} {n : Nat} {name : String}

/-- A write into a container that is no scope's dictionary of variables keeps all names. -/
theorem Store.WrittenAt.sameNames (h : Store.WrittenAt p x s t)
    (hp : ∀ q, (s.scope q).vars ≠ p.owner) : s.SameNames t := by
  refine ⟨by rw [h.rest], by rw [h.rest], fun q d hvars key => ?_⟩
  refine h.others (.entry d key) ?_
  rintro rfl
  exact hp q hvars

/-! ## Names -/

/-- Along a chain a name has one value and is bound or not bound, wherever the scopes bind the same
names to the same values. -/
theorem Store.Chain.lookup_same (h : s.Chain n (.scope r)) (hsame : s.SameNames t)
    (hname : name ∉ s.denylist) :
    ∃ w bound, r.getVar (.str name) s = .done w s ∧ r.getVar (.str name) t = .done w t ∧
      r.isDefined (.str name) s = .done bound s ∧ r.isDefined (.str name) t = .done bound t := by
  have hguard := guardValue_str name s
  have hguard' := guardValue_str name t
  rw [if_neg hname] at hguard
  rw [hsame.denylist, if_neg hname] at hguard'
  have hlength := h.length_le
  have hfuel : n < s.chainLength := by
    unfold Store.chainLength
    omega
  have hfuel' : n < t.chainLength := by
    unfold Store.chainLength
    rw [hsame.scopes]
    omega
  unfold ScopeRef.getVar
  rw [bind_of_done hguard, bind_of_done hguard']
  rcases h.holderWithin_same name hsame hfuel hfuel' with ⟨hs, ht⟩ | ⟨d, w, hs, ht, hgets, hgett⟩
  · exact ⟨.undefined, false, bind_of_done hs, bind_of_done ht, bind_of_done hs, bind_of_done ht⟩
  · exact ⟨w, true, (bind_of_done hs).trans (subscript_dict hgets),
      (bind_of_done ht).trans (subscript_dict hgett), bind_of_done hs, bind_of_done ht⟩

namespace ScopeRef

/-- In a chain, a dotted name whose variable is bound is read along the path below its value. -/
theorem get_of_bound (hname : (dottedName name).1 ∉ s.denylist)
    (hdefined : r.isDefined (.str (dottedName name).1) s = .done true s)
    (hvalue : r.getVar (.str (dottedName name).1) s = .done v s) :
    r.get name s = getPath v (dottedName name).2 s := by
  have hguard := guardValue_str (dottedName name).1 s
  rw [if_neg hname] at hguard
  rw [get_eq]
  unfold getAt
  rw [bind_of_done hguard, bind_of_done hdefined, if_pos rfl, bind_of_done hvalue]

/-- A value that was written under a dotted name is read back under it. -/
theorem set_spec (hchain : s.Chain n (.scope r))
    (hdefined : r.isDefined (.str (dottedName name).1) s = .done true s)
    (hvalue : r.getVar (.str (dottedName name).1) s = .done v s)
    (hclear : Clear s v (dottedName name).2)
    (hvars : ∀ c ∈ visited s v (dottedName name).2.dropLast, ∀ q, (s.scope q).vars ≠ c)
    (h : r.set name x s = .done w t) :
    r.get name t = .done x t ∧
      ∃ p, Target s v (dottedName name).2 p ∧ Store.WrittenAt p x s t := by
  have hname : (dottedName name).1 ∉ s.denylist := by
    intro hmem
    rw [getVar_forbidden hmem] at hvalue
    cases hvalue
  rw [set_eq, setAt_path r x hname hclear.nonempty, bind_of_done hvalue] at h
  obtain ⟨hread, p, htarget, hwritten⟩ := setPath_spec hclear h
  refine ⟨?_, p, htarget, hwritten⟩
  have hsame : s.SameNames t := by
    obtain ⟨owner, howner, key, hkey, hplace⟩ := htarget
    have hmem := List.mem_of_getLast? howner
    refine hwritten.sameNames fun q => ?_
    rw [(hclear.through.containers owner hmem).owner hplace]
    exact hvars owner hmem q
  obtain ⟨u, bound, hu, hut, hbound, hboundt⟩ := hchain.lookup_same hsame hname
  cases hu.symm.trans hvalue
  cases hbound.symm.trans hdefined
  rw [get_of_bound (hsame.denylist ▸ hname) hboundt hut, hread]

end ScopeRef

/-- What was written is read back, along a clear path as well as under a dotted name in a chain of
scopes whose variable is bound and whose path is clear and comes to no scope's dictionary of
variables. Nothing has changed but the place that the path denotes. -/
theorem write_spec (s : Store) (x : Value) :
    (∀ v path w t, Clear s v path → setPath v path x s = .done w t →
      getPath v path t = .done x t ∧ ∃ p, Target s v path p ∧ Store.WrittenAt p x s t) ∧
    (∀ (r : ScopeRef) name n v w t, s.Chain n (.scope r) →
      r.isDefined (.str (dottedName name).1) s = .done true s →
      r.getVar (.str (dottedName name).1) s = .done v s → Clear s v (dottedName name).2 →
      (∀ c ∈ visited s v (dottedName name).2.dropLast, ∀ q, (s.scope q).vars ≠ c) →
      r.set name x s = .done w t →
      r.get name t = .done x t ∧
        ∃ p, Target s v (dottedName name).2 p ∧ Store.WrittenAt p x s t) :=
  ⟨fun _ _ _ _ hclear h => setPath_spec hclear h,
    fun _ _ _ _ _ _ hchain hdefined hvalue hclear hvars h =>
      ScopeRef.set_spec hchain hdefined hvalue hclear hvars h⟩

/-- A store with a scope in which a variable is a dictionary, in which there is a list with a host
object. -/
def nestedStore : Store :=
  { Store.empty [] with
    dicts := #[Dict.ofTexts [("a", .dict ⟨1⟩)], Dict.ofTexts [("xs", .list ⟨0⟩)]]
    lists := #[#[.object ⟨.plain, 0⟩]]
    objects := #[[]]
    scopes := #[⟨.dict ⟨0⟩, .set 0 [], .nil⟩] }

theorem nestedStore_visited :
    visited nestedStore (.dict ⟨1⟩) [.str "xs", .str "0"] =
      [.dict ⟨1⟩, .list ⟨0⟩, .object ⟨.plain, 0⟩] := rfl

theorem nestedStore_clear : Clear nestedStore (.dict ⟨1⟩) [.str "xs", .str "0", .str "k"] := by
  refine ⟨List.cons_ne_nil _ _, ⟨?_, ?_⟩, ?_⟩
  · intro c hc
    simp only [List.dropLast, nestedStore_visited, List.mem_cons, List.not_mem_nil, or_false] at hc
    obtain rfl | rfl | rfl := hc
    · exact (by decide : 1 < 2)
    · exact (by decide : 0 < 1)
    · exact (by decide : 0 < 1)
  · simp [List.dropLast, nestedStore_visited]
  · intro owner howner key hkey
    cases howner
    cases hkey
    exact ⟨"k", rfl⟩

theorem write_spec_nested :
    ∃ t u, setPath (.dict ⟨1⟩) [.str "xs", .str "0", .str "k"] (.int 5) nestedStore =
        .done (.int 5) t ∧
      getPath (.dict ⟨1⟩) [.str "xs", .str "0", .str "k"] t = .done (.int 5) t ∧
      ScopeRef.set ⟨0⟩ "a.xs.0.k" (.int 5) nestedStore = .done (.int 5) u ∧
      ScopeRef.get ⟨0⟩ "a.xs.0.k" u = .done (.int 5) u := by
  have hpath : ∃ t, setPath (.dict ⟨1⟩) [.str "xs", .str "0", .str "k"] (.int 5) nestedStore =
    .done (.int 5) t := ⟨_, rfl⟩
  have hname : ∃ u, ScopeRef.set ⟨0⟩ "a.xs.0.k" (.int 5) nestedStore = .done (.int 5) u := ⟨_, rfl⟩
  obtain ⟨t, ht⟩ := hpath
  obtain ⟨u, hu⟩ := hname
  have hchain : nestedStore.Chain 1 (.scope ⟨0⟩) := .scope rfl .nil
  have hclear : Clear nestedStore (.dict ⟨1⟩) (dottedName "a.xs.0.k").2 := nestedStore_clear
  have hvars : ∀ c ∈ visited nestedStore (.dict ⟨1⟩) (dottedName "a.xs.0.k").2.dropLast,
      ∀ q, (nestedStore.scope q).vars ≠ c := by
    intro c hc q hq
    have hscope : (nestedStore.scope q).vars = .dict ⟨0⟩ ∨
        (nestedStore.scope q).vars = .undefined := by
      obtain ⟨_ | i⟩ := q
      · exact .inl rfl
      · exact .inr rfl
    have hc : c ∈ [.dict ⟨1⟩, .list ⟨0⟩, .object ⟨.plain, 0⟩] := hc
    rw [← hq] at hc
    rcases hscope with h | h <;> simp [h] at hc
  have hspec := write_spec nestedStore (.int 5)
  exact ⟨t, u, ht, (hspec.1 _ _ _ t nestedStore_clear ht).1, hu,
    (hspec.2 ⟨0⟩ "a.xs.0.k" 1 (.dict ⟨1⟩) _ u hchain rfl rfl hclear hvars hu).1⟩

/-- A store with a host object that acts as the scope around another one and is a variable in its
own variables. -/
def actingStore : Store :=
  { Store.empty [] with
    dicts := #[.empty, Dict.ofTexts [("x", .object ⟨.plain, 0⟩)]]
    objects := #[[("parent", .nil), ("vars", .dict ⟨1⟩)]]
    scopes := #[⟨.dict ⟨0⟩, .set 0 [], .object ⟨.plain, 0⟩⟩] }

/-- A kind of node under which a host object was written is not read back under it, and neither is
the name that denotes the variables of what acts as a scope. -/
theorem write_lost :
    (∃ t, setPath (.object ⟨.plain, 0⟩) [.kind (.leaf .key)] (.int 5) actingStore =
        .done (.int 5) t ∧
      getPath (.object ⟨.plain, 0⟩) [.kind (.leaf .key)] t = .done .undefined t) ∧
    ∃ t e u, ScopeRef.set ⟨0⟩ "x.vars" (.int 5) actingStore = .done (.int 5) t ∧
      ScopeRef.get ⟨0⟩ "x.vars" t = .failed e u :=
  ⟨⟨_, rfl, rfl⟩, _, _, _, rfl, rfl⟩

end Lisplet
