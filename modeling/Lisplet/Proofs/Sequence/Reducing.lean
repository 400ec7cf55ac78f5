import Lisplet.Evaluation.Eval
import Lisplet.Proofs.Store.Running

/-!
# Reducing sequences

With an initial value other than void, `reduce` is the fold of the callback over the elements that
the sequence has at the beginning, from the left, so that a sequence can be reduced part by part.
A void initial value counts as none: the first element takes its place, and there must be one. The
law about parts therefore fails where the callback gives void in between (`reduce_void`).

Main statement: `reduce_spec`.
-/

namespace Lisplet

open Lisplet.Action

/-- The value is a list or a tuple that has these elements. -/
inductive Store.Sequence (s : Store) : Value → List Value → Prop where
  | list (r : ListRef) : s.Sequence (.list r) (s.list r).toList
  | tuple (id : Nat) (items : List Value) : s.Sequence (.tuple id items) items

namespace SequenceMethod

variable {m : Machine} {fn seq init : Value} {items : List Value} {s : Store}

theorem foldCalls_eq (m : Machine) (fn acc : Value) (xs : List Value) :
    foldCalls m fn acc xs = xs.foldlM (fun acc v => m.call fn [acc, v]) acc := by
  induction xs generalizing acc with
  | nil => rfl
  | cons x xs ih =>
    rw [List.foldlM_cons]
    exact bind_congr fun acc => ih acc

theorem reduce_call (m : Machine) (seq fn init : Value) :
    reduce.call m [seq, fn, init] [] = reduceElements m seq fn init :=
  rfl

theorem elements_of_sequence (hseq : s.Sequence seq items) :
    Action.elements seq s = .done items s := by
  cases hseq with
  | list r => rfl
  | tuple id items => rfl

theorem reduce_of_initial (hseq : s.Sequence seq items) (hinit : init ≠ .undefined) :
    reduce.call m [seq, fn, init] [] s =
      items.foldlM (fun acc v => m.call fn [acc, v]) init s := by
  rw [reduce_call, ← foldCalls_eq]
  refine (bind_of_done (elements_of_sequence hseq)).trans ?_
  split
  · exact absurd rfl hinit
  · exact absurd rfl hinit
  · rfl

theorem reduce_of_void_nil (hseq : s.Sequence seq []) :
    reduce.call m [seq, fn, .undefined] [] s = .failed (.fresh .emptyReduce) s :=
  bind_of_done (elements_of_sequence hseq)

/-- Without an initial value the first element is it. -/
theorem reduce_of_void_cons {first : Value} {rest : List Value}
    (hseq : s.Sequence seq (first :: rest)) :
    reduce.call m [seq, fn, .undefined] [] s =
      rest.foldlM (fun acc v => m.call fn [acc, v]) first s := by
  rw [← foldCalls_eq]
  exact bind_of_done (elements_of_sequence hseq)

/-- Reducing the second part goes on where reducing the first part has ended, unless it has ended
with void. -/
theorem reduce_append {first second : Value} {ys zs : List Value}
    (hseq : s.Sequence seq (ys ++ zs)) (hfirst : s.Sequence first ys) (hinit : init ≠ .undefined)
    (hsecond : ∀ acc t, reduce.call m [first, fn, init] [] s = .done acc t →
      acc ≠ .undefined ∧ t.Sequence second zs) :
    reduce.call m [seq, fn, init] [] s =
      (reduce.call m [first, fn, init] [] >>= fun acc => reduce.call m [second, fn, acc] []) s := by
  rw [reduce_of_initial hseq hinit, List.foldlM_append, bind_apply, bind_apply,
    ← reduce_of_initial hfirst hinit]
  cases hreduce : reduce.call m [first, fn, init] [] s with
  | done acc t =>
    obtain ⟨hacc, hzs⟩ := hsecond acc t hreduce
    exact (reduce_of_initial hzs hacc).symm
  | failed e t => rfl
  | exhausted => rfl

/-- With an initial value that is not void, `reduce` is the fold from the left, and a sequence is
reduced by reducing its second part from what its first part gives, if that is not void either. A
void initial value is like none. -/
theorem reduce_spec (m : Machine) (fn : Value) (hseq : s.Sequence seq items) :
    (∀ init, init ≠ .undefined →
      reduce.call m [seq, fn, init] [] s =
        items.foldlM (fun acc v => m.call fn [acc, v]) init s) ∧
    (∀ init, init ≠ .undefined → ∀ first second ys zs, items = ys ++ zs → s.Sequence first ys →
      (∀ acc t, reduce.call m [first, fn, init] [] s = .done acc t →
        acc ≠ .undefined ∧ t.Sequence second zs) →
      reduce.call m [seq, fn, init] [] s =
        (reduce.call m [first, fn, init] [] >>= fun acc =>
          reduce.call m [second, fn, acc] []) s) ∧
    reduce.call m [seq, fn, .undefined] [] = reduce.call m [seq, fn] [] ∧
    (items = [] → reduce.call m [seq, fn, .undefined] [] s = .failed (.fresh .emptyReduce) s) ∧
    ∀ first rest, items = first :: rest →
      reduce.call m [seq, fn, .undefined] [] s =
        rest.foldlM (fun acc v => m.call fn [acc, v]) first s := by
  refine ⟨fun init hinit => reduce_of_initial hseq hinit, ?_, rfl, ?_, ?_⟩
  · rintro init hinit first second ys zs rfl hfirst hsecond
    exact reduce_append hseq hfirst hinit hsecond
  · rintro rfl
    exact reduce_of_void_nil hseq
  · rintro first rest rfl
    exact reduce_of_void_cons hseq

/-- A store with a function that makes lists. -/
def listingStore : Store := { Store.empty [] with functions := #[⟨.host .list, []⟩] }

/-- Lists inside each other. -/
theorem reduce_spec_lists :
    ∃ t, reduce.call (machine 1) [.tuple 1 [.int 1, .int 2], .function ⟨.plain, 0⟩, .int 0] []
        listingStore = .done (.list ⟨1⟩) t ∧
      t.lists = #[#[.int 0, .int 1], #[.list ⟨0⟩, .int 2]] := by
  obtain ⟨hfold, -⟩ := reduce_spec (machine 1) (.function ⟨.plain, 0⟩)
    (s := listingStore) (.tuple 1 [.int 1, .int 2])
  exact ⟨_, (hfold (.int 0) nofun).trans rfl, rfl⟩

/-- A void initial value over no elements is an error and not the initial value. Where the callback
gives void, as a comment does, the second of two parts begins with its own first element. -/
theorem reduce_void :
    reduce.call (machine 2) [.emptyTuple, .form (.operator .add), .undefined] [] (Store.empty []) =
      .failed (.fresh .emptyReduce) (Store.empty []) ∧
    (∃ t, reduce.call (machine 2) [.tuple 1 [.int 1, .int 2], .form .comment, .int 0] []
      (Store.empty []) = .done .undefined t) ∧
    ∃ t, (reduce.call (machine 2) [.tuple 1 [.int 1], .form .comment, .int 0] [] >>= fun acc =>
      reduce.call (machine 2) [.tuple 1 [.int 2], .form .comment, acc] []) (Store.empty []) =
        .done (.int 2) t := by
  refine ⟨rfl, ?_, ?_⟩
  · exact ⟨_, rfl⟩
  · exact ⟨_, rfl⟩

end SequenceMethod

end Lisplet
