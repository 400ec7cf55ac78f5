import Lisplet.Proofs.Sequence.Reducing

/-!
# Parts of sequences

A part of a sequence lies between two bounds, which may be any integers: a bound below zero counts
from the end, and a bound beyond an end is moved to it. So every integer cuts a sequence at one
place (`cutAt`), the same for what comes before it and for what comes from it on, and the two parts
in a row are the sequence again.

Main statement: `slice_spec`.
-/

namespace Lisplet

open Lisplet.Action

/-! ## Cutting -/

/-- The place where an integer cuts a sequence of a given length. -/
def cutAt (length : Nat) (i : Int) : Nat :=
  let i := if i < 0 then i + length else i
  if i < 0 then 0 else if length < i then length else i.toNat

theorem clampRange_eq (length : Nat) (start stop : Option Int) :
    clampRange length start stop =
      ((start.map (cutAt length)).getD 0, (stop.map (cutAt length)).getD length) :=
  rfl

theorem cutAt_of_le {length i : Nat} (h : i ≤ length) : cutAt length i = i := by
  unfold cutAt
  rw [if_neg (by omega), if_neg (by omega), if_neg (by omega), Int.toNat_natCast]

theorem cutAt_zero (length : Nat) : cutAt length 0 = 0 := cutAt_of_le (Nat.zero_le length)

section SliceOf

variable {α : Type} (items : List α)

theorem sliceOf_before (k : Int) :
    sliceOf items (some 0) (some k) = items.take (cutAt items.length k) := by
  unfold sliceOf
  rw [clampRange_eq]
  show (items.take (cutAt items.length k)).drop (cutAt items.length 0) = _
  rw [cutAt_zero, List.drop_zero]

theorem sliceOf_from (k : Int) :
    sliceOf items (some k) none = items.drop (cutAt items.length k) := by
  unfold sliceOf
  rw [clampRange_eq]
  show (items.take items.length).drop (cutAt items.length k) = _
  rw [List.take_length]

/-- What comes before a bound and what comes from it on. -/
theorem sliceOf_append (k : Int) :
    sliceOf items (some 0) (some k) ++ sliceOf items (some k) none = items := by
  rw [sliceOf_before, sliceOf_from, List.take_append_drop]

theorem sliceOf_between {i j : Nat} (hij : i ≤ j) (hj : j ≤ items.length) :
    sliceOf items (some (i : Int)) (some (j : Int)) = (items.take j).drop i := by
  unfold sliceOf
  rw [clampRange_eq]
  show (items.take (cutAt items.length j)).drop (cutAt items.length i) = _
  rw [cutAt_of_le hj, cutAt_of_le (Nat.le_trans hij hj)]

theorem sliceOf_nil (start stop : Option Int) : sliceOf ([] : List α) start stop = [] := by
  unfold sliceOf
  dsimp only
  rw [List.take_nil, List.drop_nil]

end SliceOf

/-! ## New lists -/

namespace Store

variable {s : Store} {v : Value} {items new : List Value}

/-- The list that is made next. -/
theorem sequence_newList (s : Store) (new : List Value) :
    (s.addList new.toArray).2.Sequence (.list ⟨s.lists.size⟩) new := by
  have hlist : (s.addList new.toArray).2.list ⟨s.lists.size⟩ = new.toArray := by
    unfold Store.list addList
    simp
  have hseq := Sequence.list (s := (s.addList new.toArray).2) ⟨s.lists.size⟩
  rwa [hlist] at hseq

/-- A list that is not there has no elements. -/
theorem Sequence.eq_nil (h : s.Sequence (.list ⟨s.lists.size⟩) items) : items = [] := by
  cases h with
  | list r => simp [Store.list]

/-- A new list leaves the other sequences as they are. Only a reference to a list that is not there
yet could refer to it. -/
theorem Sequence.addList (h : s.Sequence v items) (hnew : v = .list ⟨s.lists.size⟩ → new = []) :
    (s.addList new.toArray).2.Sequence v items := by
  cases h with
  | tuple id items => exact .tuple id items
  | list r =>
    have hlist : (s.addList new.toArray).2.list r = s.list r := by
      unfold Store.list Store.addList
      rw [Array.getD_eq_getD_getElem?, Array.getD_eq_getD_getElem?, Array.getElem?_push]
      split
      · next hr =>
        rw [hnew (by rw [← hr]), hr, Array.getElem?_size]
        rfl
      · rfl
    have hseq := Sequence.list (s := (s.addList new.toArray).2) r
    rwa [hlist] at hseq

end Store

/-! ## Methods -/

namespace SequenceMethod

variable {m : Machine} {seq first second : Value} {items xs ys : List Value} {s : Store}

/-- The part between two bounds is a new list. -/
theorem slice_bounds (hseq : s.Sequence seq items) (i j : Int) :
    slice.call m [seq, .int i, .int j] [] s =
      .done (.list ⟨s.lists.size⟩)
        (s.addList (sliceOf items (Option.some i) (Option.some j)).toArray).2 := by
  cases hseq with
  | list r => rfl
  | tuple id items => rfl

/-- The part from a bound on is a new list. -/
theorem slice_from (hseq : s.Sequence seq items) (i : Int) :
    slice.call m [seq, .int i] [] s =
      .done (.list ⟨s.lists.size⟩)
        (s.addList (sliceOf items (Option.some i) none).toArray).2 := by
  cases hseq with
  | list r => rfl
  | tuple id items => rfl

/-- Two sequences in a row are a new list. -/
theorem concat_two (hfirst : s.Sequence first xs) (hsecond : s.Sequence second ys) :
    concat.call m [first, second] [] s =
      .done (.list ⟨s.lists.size⟩) (s.addList (xs ++ ys).toArray).2 := by
  have hadditions : additions [second] s = .done ys s := by
    cases hsecond with
    | list r => exact congrArg (Outcome.done · s) (List.append_nil _)
    | tuple id ys => exact congrArg (Outcome.done · s) (List.append_nil _)
  exact (bind_of_done (elements_of_sequence hfirst)).trans (bind_of_done hadditions)

/-- Whatever integer cuts it, a sequence is the concatenation of its parts before the cut and from
it on. Between two positions lie the elements at the first position and after it, up to the
second. -/
theorem slice_spec (m : Machine) (hseq : s.Sequence seq items) :
    (∀ k : Int, ∃ r t,
      (do
        let before ← slice.call m [seq, .int 0, .int k] []
        let after ← slice.call m [seq, .int k] []
        concat.call m [before, after] []) s = .done (.list r) t ∧ t.Sequence (.list r) items) ∧
    ∀ i j : Nat, i ≤ j → j ≤ items.length → ∃ r t part,
      slice.call m [seq, .int i, .int j] [] s = .done (.list r) t ∧ t.Sequence (.list r) part ∧
        part.length = j - i ∧ ∀ n < j - i, part[n]? = items[i + n]? := by
  constructor
  · intro k
    let before := sliceOf items (Option.some 0) (Option.some k)
    let after := sliceOf items (Option.some k) none
    let t := (s.addList before.toArray).2
    let u := (t.addList after.toArray).2
    have hother : Value.list ⟨s.lists.size⟩ ≠ .list ⟨t.lists.size⟩ := by
      have hmade : t.lists.size = s.lists.size + 1 := Array.size_push _
      rw [hmade]
      simp
    have hseq' : t.Sequence seq items := hseq.addList fun h => by
      have hitems : items = [] := (h ▸ hseq).eq_nil
      show sliceOf items _ _ = []
      rw [hitems, sliceOf_nil]
    have hfirst : u.Sequence (.list ⟨s.lists.size⟩) before :=
      (s.sequence_newList before).addList fun h => absurd h hother
    have hsecond : u.Sequence (.list ⟨t.lists.size⟩) after := t.sequence_newList after
    refine ⟨⟨u.lists.size⟩, (u.addList items.toArray).2, ?_, u.sequence_newList items⟩
    rw [bind_of_done (slice_bounds hseq 0 k), bind_of_done (slice_from hseq' k),
      concat_two hfirst hsecond, sliceOf_append]
  · intro i j hij hj
    refine ⟨_, _, _, slice_bounds hseq i j, s.sequence_newList _, ?_, fun n hn => ?_⟩
    · rw [sliceOf_between items hij hj, List.length_drop, List.length_take]
      omega
    · rw [sliceOf_between items hij hj, List.getElem?_drop, List.getElem?_take]
      rw [if_pos (by omega)]

/-- A bound that counts from the end, and the part between two positions. -/
theorem slice_spec_negative :
    (∃ r t, (do
      let before ← slice.call (machine 1) [.tuple 1 [.int 7, .int 8, .int 9], .int 0, .int (-1)] []
      let after ← slice.call (machine 1) [.tuple 1 [.int 7, .int 8, .int 9], .int (-1)] []
      concat.call (machine 1) [before, after] []) (Store.empty []) = .done (.list r) t ∧
        t.Sequence (.list r) [.int 7, .int 8, .int 9]) ∧
    ∃ r t part, slice.call (machine 1) [.tuple 1 [.int 7, .int 8, .int 9], .int 1, .int 3] []
        (Store.empty []) = .done (.list r) t ∧ t.Sequence (.list r) part ∧ part.length = 3 - 1 ∧
      ∀ n < 3 - 1, part[n]? = [Value.int 7, .int 8, .int 9][1 + n]? := by
  obtain ⟨hjoined, hpart⟩ := slice_spec (s := Store.empty []) (machine 1)
    (.tuple 1 [.int 7, .int 8, .int 9])
  exact ⟨hjoined (-1), hpart 1 3 (by decide) (by decide)⟩

end SequenceMethod

end Lisplet
