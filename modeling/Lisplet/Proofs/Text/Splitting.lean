import Lisplet.Text.Search
import Mathlib.Data.List.Infix
import Mathlib.Tactic.Common

/-!
# Splitting at one item

Splitting at a separator of one item, without a limit, is the splitting of the list library.
-/

namespace Lisplet.Text

variable {α : Type} [BEq α] [LawfulBEq α]

theorem findFrom_singleton_append {c : α} {before : List α} (h : c ∉ before) (after : List α)
    (i : Nat) : findFrom [c] i (before ++ c :: after) = some (i + before.length) := by
  induction before generalizing i with
  | nil => simp [findFrom]
  | cons b before ih =>
    obtain ⟨hb, hbefore⟩ := List.ne_and_not_mem_of_not_mem_cons h
    have hne : (c == b) = false := beq_false_of_ne hb
    rw [List.cons_append, findFrom]
    simp only [List.isPrefixOf, hne, Bool.false_and, Bool.false_eq_true, if_false]
    rw [ih hbefore, List.length_cons]
    congr 1
    omega

theorem findFrom_singleton_none {c : α} {cs : List α} (h : c ∉ cs) (i : Nat) :
    findFrom [c] i cs = none := by
  induction cs generalizing i with
  | nil => rfl
  | cons b cs ih =>
    obtain ⟨hb, hcs⟩ := List.ne_and_not_mem_of_not_mem_cons h
    have hne : (c == b) = false := beq_false_of_ne hb
    rw [findFrom]
    simp only [List.isPrefixOf, hne, Bool.false_and, Bool.false_eq_true, if_false]
    exact ih hcs (i + 1)

/-- Splitting at a single item, with enough steps. -/
theorem splitWithin_singleton (c : α) {fuel : Nat} {cs : List α} (h : cs.length < fuel) :
    splitWithin [c] fuel none cs = cs.splitOn c := by
  induction fuel generalizing cs with
  | zero => omega
  | succ fuel ih =>
    unfold splitWithin
    by_cases hmem : c ∈ cs
    · obtain ⟨before, after, rfl, hbefore⟩ := List.eq_append_cons_of_mem hmem
      have hcut : cut? [c] (before ++ c :: after) = some (before, after) := by
        unfold cut? find?
        rw [findFrom_singleton_append hbefore]
        simp
      rw [hcut, List.splitOn_append_cons_self_of_not_mem hbefore]
      simp only [spend]
      rw [ih]
      simp only [List.length_append, List.length_cons] at h
      omega
    · have hcut : cut? [c] cs = none := by
        unfold cut? find?
        rw [findFrom_singleton_none hmem]
        rfl
      rw [hcut, List.splitOn_eq_singleton hmem]
      rfl

end Lisplet.Text
