import Lisplet.Proofs.Sequence.Reducing
import Lisplet.Proofs.Store.Matching

/-!
# Searching sequences

Whether a list or tuple includes a value and where it stands are answered by the same comparison,
which does not change the store: an element is found if it matches the value, and the place is that
of the first one (`search_spec`). What is asked for may contain itself, but the elements may not.
-/

namespace Lisplet

open Lisplet.Action

open scoped Classical

variable {s : Store} {v value : Value} {items : List Value}

/-- Comparing a value says whether it matches. -/
theorem Action.within_equal (hv : s.Acyclic v) (value : Value) :
    within (·.equal v value) s = .done (decide (s.Matches v value)) s := by
  simp only [within]
  have hequal := Store.equal_decides hv value
  generalize s.equal v value = answer at hequal
  cases hequal with
  | yes h => rw [decide_eq_true h]
  | no h => rw [decide_eq_false h]

theorem Action.anyEqual_eq (value : Value) (hitems : ∀ v ∈ items, s.Acyclic v) :
    anyEqual value items s = .done (items.any fun v => decide (s.Matches v value)) s := by
  induction items with
  | nil => rfl
  | cons v rest ih =>
    obtain ⟨hv, hrest⟩ := List.forall_mem_cons.mp hitems
    rw [anyEqual, bind_of_done (within_equal hv value), List.any_cons]
    cases decide (s.Matches v value) with
    | true => rfl
    | false => exact ih hrest

theorem indexFrom_eq {stop i : Nat} (hstop : i + items.length ≤ stop)
    (hitems : ∀ v ∈ items, s.Acyclic v) :
    indexFrom value stop i items s =
      .done ((items.findIdx? fun v => decide (s.Matches v value)).map (· + i)) s := by
  induction items generalizing i with
  | nil => rfl
  | cons v rest ih =>
    obtain ⟨hv, hrest⟩ := List.forall_mem_cons.mp hitems
    rw [List.length_cons] at hstop
    rw [indexFrom, if_neg (by omega), bind_of_done (within_equal hv value), List.findIdx?_cons]
    cases decide (s.Matches v value) with
    | true => simp; rfl
    | false =>
      refine (ih (by omega) hrest).trans ?_
      simp [Function.comp_def, Nat.add_assoc, Nat.add_comm 1]

theorem indexIn_eq (value : Value) (hitems : ∀ v ∈ items, s.Acyclic v) :
    indexIn value items s = .done (items.findIdx? fun v => decide (s.Matches v value)) s := by
  rw [indexIn, indexFrom_eq (by omega) hitems]
  simp

namespace SequenceMethod

variable {m : Machine} {seq : Value}

theorem includes_eq (m : Machine) (value : Value) (hseq : s.Sequence seq items)
    (hitems : ∀ v ∈ items, s.Acyclic v) :
    includes.call m [seq, value] [] s =
      .done (.bool (items.any fun v => decide (s.Matches v value))) s := by
  have hcontains : contains seq value s = anyEqual value items s := by
    cases hseq with
    | list r => rfl
    | tuple id items => rfl
  exact bind_of_done (hcontains.trans (anyEqual_eq value hitems))

/-- The place as an integer, which is minus one where there is none. -/
def placeNumber (place : Option Nat) : Int := (place.map Int.ofNat).getD (-1)

theorem indexOf_eq (m : Machine) (value : Value) (hseq : s.Sequence seq items)
    (hitems : ∀ v ∈ items, s.Acyclic v) :
    indexOf.call m [seq, value] [] s =
      .done (.int (placeNumber (items.findIdx? fun v => decide (s.Matches v value)))) s := by
  have hplace : positionOf m seq value s =
      (indexIn value items >>= fun place => pure (.int (placeNumber place))) s := by
    cases hseq with
    | list r => rfl
    | tuple id items => rfl
  show catching _ _ (positionOf m seq value) s = _
  unfold catching
  rw [hplace, bind_of_done (indexIn_eq value hitems)]
  rfl

/-- A store with two lists. -/
def pairStore : Store := { Store.empty [] with lists := #[#[.int 1], #[.bool true]] }

end SequenceMethod

end Lisplet
