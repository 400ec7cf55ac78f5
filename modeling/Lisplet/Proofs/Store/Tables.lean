import Lisplet.Store.Basic

/-!
# Tables

What stands at a place of a table of the store after something was written or added.
-/

namespace Lisplet.Store

variable {α : Type} (xs : Array α) (i j : Nat) (x d : α)

theorem getD_setIfInBounds :
    (xs.setIfInBounds i x).getD j d = if i = j ∧ j < xs.size then x else xs.getD j d := by
  simp only [Array.getD_eq_getD_getElem?, Array.getElem?_setIfInBounds]
  by_cases hij : i = j
  · subst hij
    by_cases hlt : i < xs.size
    · simp [hlt]
    · simp [hlt]
  · simp [hij]

theorem getD_push :
    (xs.push x).getD j d = if j = xs.size then x else xs.getD j d := by
  simp only [Array.getD_eq_getD_getElem?, Array.getElem?_push]
  split <;> rfl

/-! ## Containers -/

variable {s : Store}

theorem list_setList {r : ListRef} (hr : r.index < s.lists.size) (items : Array Value)
    (q : ListRef) : (s.setList r items).list q = if q = r then items else s.list q := by
  show (s.lists.setIfInBounds r.index items).getD q.index #[] = _
  rw [getD_setIfInBounds]
  by_cases hq : q = r
  · rw [if_pos hq, if_pos ⟨congrArg ListRef.index hq.symm, hq ▸ hr⟩]
  · rw [if_neg hq, if_neg fun h => hq (congrArg ListRef.mk h.1.symm)]
    rfl

theorem dict_setDict {r : DictRef} (hr : r.index < s.dicts.size) (content : Dict) (q : DictRef) :
    (s.setDict r content).dict q = if q = r then content else s.dict q := by
  show (s.dicts.setIfInBounds r.index content).getD q.index .empty = _
  rw [getD_setIfInBounds]
  by_cases hq : q = r
  · rw [if_pos hq, if_pos ⟨congrArg DictRef.index hq.symm, hq ▸ hr⟩]
  · rw [if_neg hq, if_neg fun h => hq (congrArg DictRef.mk h.1.symm)]
    rfl

theorem size_setDict (s : Store) (d : DictRef) (content : Dict) :
    (s.setDict d content).dicts.size = s.dicts.size :=
  Array.size_setIfInBounds

theorem setDict_self (s : Store) (d : DictRef) : s.setDict d (s.dict d) = s := by
  have hdicts : s.dicts.setIfInBounds d.index (s.dict d) = s.dicts := by
    refine Array.ext (by simp) fun i h h' => ?_
    rw [Array.getElem_setIfInBounds]
    split
    · next heq =>
      subst heq
      show s.dicts.getD d.index Dict.empty = _
      rw [Array.getD_eq_getD_getElem?, Array.getElem?_eq_getElem h', Option.getD_some]
    · rfl
  unfold setDict
  rw [hdicts]

theorem setDict_setDict (s : Store) (d : DictRef) (a b : Dict) :
    (s.setDict d a).setDict d b = s.setDict d b := by
  unfold setDict
  simp

/-- Objects of different classes with the same number share their attributes. -/
theorem objects_setObject {r : ObjectRef} (hr : r.index < s.objects.size) (attrs : Attributes)
    (i : Nat) :
    (s.setObject r attrs).objects.getD i [] =
      if i = r.index then attrs else s.objects.getD i [] := by
  show (s.objects.setIfInBounds r.index attrs).getD i [] = _
  rw [getD_setIfInBounds]
  by_cases hi : i = r.index
  · rw [if_pos hi, if_pos ⟨hi.symm, hi ▸ hr⟩]
  · rw [if_neg hi, if_neg fun h => hi h.1.symm]

end Lisplet.Store
