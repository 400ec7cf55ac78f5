import Lisplet.Proofs.Property.Guards
import Lisplet.Proofs.Store.Tables

/-!
# Positions of lists

A property of a list that can be written is an element, at the position that the key denotes. What
is written at a position from zero on is read back there, and the list grows if and only if the
position is its length. A position below zero counts from the end when it is written, and is void
when it is read.

Main statement: `set_list_spec`.
-/

namespace Lisplet.Property

open Lisplet.Action

variable {r : ListRef} {key v : Value} {i : Int} {s t : Store}

/-! ## Positions -/

theorem place?_eq_some {length n : Nat} {i : Int} :
    place? length i = some n ↔ i = n ∧ n < length := by
  unfold place?
  split
  · next h =>
    simp only [Bool.and_eq_true, decide_eq_true_eq] at h
    rw [Option.some.injEq]
    omega
  · next h =>
    simp only [Bool.and_eq_true, decide_eq_true_eq] at h
    refine ⟨fun h => (by cases h), fun ⟨hi, hlt⟩ => absurd ?_ h⟩
    omega

theorem place?_eq_none {length : Nat} {i : Int} (h : i < 0) : place? length i = none := by
  unfold place?
  rw [if_neg]
  simp only [Bool.and_eq_true, decide_eq_true_eq]
  omega

/-! ## Reading and writing -/

/-- What a list has at the position that a key denotes; there is nothing below zero. -/
theorem get_list (hguard : guardKey key s = .done () s) (hindex : index? key = .ok (some i)) :
    get (.list r) key s =
      .done (((place? (s.list r).size i).bind ((s.list r)[·]?)).getD .undefined) s := by
  refine (bind_of_done hguard).trans ?_
  have hread : Action.gets (·.list r) s = .done (s.list r) s := rfl
  refine (bind_of_done hread).trans ?_
  unfold ofSequence
  rw [hindex]
  rfl

theorem get_list_at {n : Nat} (hguard : guardKey key s = .done () s)
    (hindex : index? key = .ok (some (n : Int))) :
    get (.list r) key s = .done ((s.list r)[n]?.getD .undefined) s := by
  rw [get_list hguard hindex]
  by_cases hlt : n < (s.list r).size
  · rw [place?_eq_some.mpr ⟨rfl, hlt⟩, Option.bind_some]
  · have hplace : place? (s.list r).size n = none := by
      rw [Option.eq_none_iff_forall_ne_some]
      rintro m hm
      obtain ⟨hi, hm⟩ := place?_eq_some.mp hm
      omega
    rw [hplace, Array.getElem?_eq_none (Nat.le_of_not_lt hlt), Option.bind_none]

theorem get_list_below (hguard : guardKey key s = .done () s)
    (hindex : index? key = .ok (some i)) (hi : i < 0) :
    get (.list r) key s = .done .undefined s := by
  rw [get_list hguard hindex, place?_eq_none hi, Option.bind_none, Option.getD_none]

theorem guardKey_int (j : Int) (s : Store) : guardKey (.int j) s = .done () s := rfl

/-- The elements with one put at a place, which may be right after the last one. -/
def putAt (items : Array Value) (n : Nat) (v : Value) : Array Value :=
  if n = items.size then items.push v else items.setIfInBounds n v

theorem getElem?_putAt {items : Array Value} {n j : Nat} (h : n ≤ items.size) :
    (putAt items n v)[j]? = if j = n then some v else items[j]? := by
  unfold putAt
  by_cases hn : n = items.size
  · rw [if_pos hn, hn, Array.getElem?_push]
  · have hlt : n < items.size := by omega
    rw [if_neg hn, Array.getElem?_setIfInBounds, if_pos hlt]
    simp only [eq_comm]

theorem size_putAt {items : Array Value} {n : Nat} :
    (putAt items n v).size = if n = items.size then items.size + 1 else items.size := by
  unfold putAt
  split
  · exact Array.size_push v
  · exact Array.size_setIfInBounds

/-- The place in a list of so many elements at which an index is written: its own, or counted from
the end. -/
def Denotes (length : Nat) (i : Int) (n : Nat) : Prop :=
  i = n ∧ n ≤ length ∨ i < 0 ∧ i + length = n

theorem placeFromEnd?_eq_some {length n : Nat} (h : placeFromEnd? length i = some n) :
    Denotes length i n ∧ n < length := by
  obtain ⟨hn, hlt⟩ := place?_eq_some.mp h
  unfold Denotes
  by_cases hi : i < 0
  · rw [if_pos hi] at hn
    omega
  · rw [if_neg hi] at hn
    omega

/-- An element is written at the place that the index denotes, or it cannot be written. -/
theorem setElement_eq_done (h : setElement r i v s = .done () t) :
    ∃ n, Denotes (s.list r).size i n ∧ t = s.setList r (putAt (s.list r) n v) := by
  unfold setElement at h
  rw [bind_eq_done] at h
  obtain ⟨items, u, hread, h⟩ := h
  cases hread
  dsimp only at h
  rcases ite_eq_done.mp h with ⟨hi, h⟩ | ⟨-, h⟩
  · cases h
    have hi : i = (s.list r).size := by simpa using hi
    refine ⟨(s.list r).size, .inl ⟨hi, Nat.le_refl _⟩, ?_⟩
    unfold putAt
    rw [if_pos rfl]
  · rcases ite_eq_done.mp h with ⟨-, h⟩ | ⟨-, h⟩
    · cases h
    · cases hplace : placeFromEnd? (s.list r).size i with
      | some n =>
        rw [hplace] at h
        cases h
        obtain ⟨hn, hlt⟩ := placeFromEnd?_eq_some hplace
        refine ⟨n, hn, ?_⟩
        unfold putAt
        rw [if_neg (Nat.ne_of_lt hlt)]
      | none =>
        rw [hplace] at h
        cases h

/-- No attribute of a list can be written. -/
theorem setNamed_list_ne_done : setNamed (.list r) key v s ≠ .done () t := by
  intro h
  unfold setNamed at h
  rw [bind_eq_done] at h
  obtain ⟨name, u, -, h⟩ := h
  have h : refusal (.list r) name u = .done () t := h
  unfold refusal at h
  rw [bind_eq_done] at h
  obtain ⟨found, w, -, h⟩ := h
  cases found <;> cases h

/-- A key that can be written is not forbidden. -/
theorem not_forbidden_of_set {owner : Value} (h : set owner key v s = .done () t) :
    ¬Forbidden s.denylist key := by
  intro hkey
  obtain ⟨e, he, -⟩ := guardKey_forbidden hkey
  unfold set at h
  rw [bind_of_failed he] at h
  cases h

/-- What writing a property of a list does. -/
theorem set_list_eq_done (h : set (.list r) key v s = .done () t) :
    ∃ i n, index? key = .ok (some i) ∧ Denotes (s.list r).size i n ∧
      t = s.setList r (putAt (s.list r) n v) := by
  have hguard := guardKey_passes (not_forbidden_of_set h)
  unfold set at h
  rw [bind_of_done hguard] at h
  dsimp only at h
  cases hindex : index? key with
  | error fault =>
    rw [hindex] at h
    cases h
  | ok index =>
    rw [hindex] at h
    cases index with
    | none => exact absurd h setNamed_list_ne_done
    | some i =>
      obtain ⟨n, hn, ht⟩ := setElement_eq_done h
      exact ⟨i, n, rfl, hn, ht⟩

/-- What it means that a value was written into a list under a key. The index that the key denotes
has a place in the list, where the value now is, and nothing else has changed. The value is read
back under the key if the index is no less than zero, and only then. -/
structure Written (r : ListRef) (key v : Value) (s t : Store) (i : Int) (n : Nat) : Prop where
  index : index? key = .ok (some i)
  place : Denotes (s.list r).size i n
  read_back : 0 ≤ i → get (.list r) key t = .done v t
  read_below : i < 0 → get (.list r) key t = .done .undefined t
  read_place : get (.list r) (.int n) t = .done v t
  others : ∀ j : Nat, j < (s.list r).size → j ≠ n →
    ∃ w, get (.list r) (.int j) s = .done w s ∧ get (.list r) (.int j) t = .done w t
  size : (t.list r).size = if i = (s.list r).size then (s.list r).size + 1 else (s.list r).size
  frame : t = s.setList r (t.list r)

/-- If a value can be written into a list, it can be read back under the key or, if the index is
below zero, under its place. All other elements are as they were, and the list has grown if and only
if the index was its length. -/
theorem set_list_spec (hr : r.index < s.lists.size) (h : set (.list r) key v s = .done () t) :
    ∃ i n, Written r key v s t i n := by
  obtain ⟨i, n, hindex, hplace, ht⟩ := set_list_eq_done h
  have hle : n ≤ (s.list r).size := by
    unfold Denotes at hplace
    omega
  have hitems : t.list r = putAt (s.list r) n v := by
    rw [ht, Store.list_setList hr, if_pos rfl]
  have hguard : guardKey key t = .done () t := by
    have hkey := not_forbidden_of_set h
    rw [ht]
    exact guardKey_passes hkey
  have hput : (t.list r)[n]?.getD .undefined = v := by
    rw [hitems, getElem?_putAt hle, if_pos rfl, Option.getD_some]
  refine ⟨i, n, hindex, hplace, fun hi => ?_, get_list_below hguard hindex, ?_, ?_, ?_, ?_⟩
  · have hin : i = n := by
      unfold Denotes at hplace
      omega
    rw [get_list_at hguard (hin ▸ hindex), hput]
  · rw [get_list_at (guardKey_int _ _) rfl, hput]
  · intro j hj hne
    refine ⟨_, get_list_at (guardKey_int _ _) rfl, ?_⟩
    rw [get_list_at (guardKey_int _ _) rfl, hitems, getElem?_putAt hle, if_neg hne]
  · have hgrows : n = (s.list r).size ↔ i = (s.list r).size := by
      unfold Denotes at hplace
      omega
    rw [hitems, size_putAt]
    simp only [hgrows]
  · rw [hitems]
    exact ht

/-- A store with a list of two elements. -/
def pairStore : Store := ((Store.empty []).addList #[.int 1, .int 2]).2

theorem set_list_spec_append :
    0 < pairStore.lists.size ∧
    ∃ t, set (.list ⟨0⟩) (.str "2") .nil pairStore = .done () t ∧
      ∃ i n, Written ⟨0⟩ (.str "2") .nil pairStore t i n := by
  have hsize : 0 < pairStore.lists.size := by decide
  have hset : set (.list ⟨0⟩) (.str "2") .nil pairStore =
      .done () (pairStore.setList ⟨0⟩ #[.int 1, .int 2, .nil]) := rfl
  exact ⟨hsize, _, hset, set_list_spec (r := ⟨0⟩) hsize hset⟩

/-- Below zero a value is written and not read back, and an element that was there before has
changed. -/
theorem set_list_below :
    ∃ t, set (.list ⟨0⟩) (.int (-1)) (.int 5) pairStore = .done () t ∧
      get (.list ⟨0⟩) (.int (-1)) t = .done .undefined t ∧
      get (.list ⟨0⟩) (.int 1) pairStore = .done (.int 2) pairStore ∧
      get (.list ⟨0⟩) (.int 1) t = .done (.int 5) t :=
  ⟨pairStore.setList ⟨0⟩ #[.int 1, .int 5], rfl, rfl, rfl, rfl⟩

end Lisplet.Property
