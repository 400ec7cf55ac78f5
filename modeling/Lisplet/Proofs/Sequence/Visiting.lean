import Lisplet.Proofs.Evaluation.Conclusions
import Lisplet.Proofs.Store.Tables

/-!
# Visiting lists

The methods of a list that call back with one element after the other go through the list as it is
at each step, and not as it was when they were called. As long as no callback adds elements after
the one it gets, or puts others in their place, this makes no difference except that elements which
are taken away are not visited any more (`visit_spec`). What a callback adds is visited as well, so
that a method may never end although every callback does (`visit_live`).
-/

namespace Lisplet

open Lisplet.Action

/-! ## One round of a walk through a list -/

namespace Cursor

variable {σ : Type} {r : ListRef} {i : Nat} {s : Store} (step : Value → σ → Action (ForInStep σ))
  (rounds : Nat) (acc : σ)

theorem fold_list_none (h : (s.list r)[i]? = none) :
    fold step (rounds + 1) (.list r i) acc s = .done acc s := by
  have hnext : (list r i).next? s = .done none s := by
    show Outcome.done ((s.list r)[i]?.map _) s = _
    rw [h]
    rfl
  exact bind_of_done hnext

theorem fold_list_some {v : Value} (h : (s.list r)[i]? = some v) :
    fold step (rounds + 1) (.list r i) acc s =
      (step v acc >>= fun result => match result with
        | .done acc => pure acc
        | .yield acc => fold step rounds (.list r (i + 1)) acc) s := by
  have hnext : (list r i).next? s = .done (some (v, .list r (i + 1))) s := by
    show Outcome.done ((s.list r)[i]?.map _) s = _
    rw [h]
    rfl
  exact bind_of_done hnext

end Cursor

/-! ## Methods that call back -/

/-- The methods that call back with one element after the other. -/
inductive Visit where
  | map | filter | forEach | find | some | every

namespace Visit

/-- The method of sequences. -/
def method : Visit → SequenceMethod
  | .map => .map
  | .filter => .filter
  | .forEach => .forEach
  | .find => .find
  | .some => .some
  | .every => .every

/-- The method goes on after a callback whose value has this truth. -/
def goesOn : Visit → Bool → Bool
  | .map, _ | .filter, _ | .forEach, _ => true
  | .find, truth | .some, truth => !truth
  | .every, truth => truth

/-- The truth of what the callback gives for an element. -/
def test (m : Machine) (fn v : Value) : Action Bool := m.call fn [v] >>= truthy

/-- What the method does with elements that are given once and for all. -/
def onItems (m : Machine) (fn : Value) (items : List Value) : Visit → Action Value
  | .map => do newList (← items.mapM fun v => m.call fn [v]).toArray
  | .filter => do newList (← items.filterM (test m fn)).toArray
  | .forEach => do
    items.forM fun v => m.call fn [v] >>= fun _ => pure ()
    return .undefined
  | .find => do return (← items.findM? (test m fn)).getD .undefined
  | .some => do return .bool (← items.anyM (test m fn))
  | .every => do return .bool (← items.allM (test m fn))

/-! ## Rounds -/

/-- A round calls back with the element and goes by the value and its truth. -/
def round {σ : Type} (m : Machine) (fn : Value) (k : Value → σ → Value → Bool → ForInStep σ)
    (v : Value) (acc : σ) : Action (ForInStep σ) := do
  let w ← m.call fn [v]
  return k v acc w (← truthy w)

/-- The rounds go on when the method does. -/
def Follows (visit : Visit) {σ : Type} (k : Value → σ → Value → Bool → ForInStep σ) : Prop :=
  ∀ v acc w truth, ∃ acc', k v acc w truth =
    if visit.goesOn truth then .yield acc' else .done acc'

/-- A round that ends with the first element for which the callback gives something of this
truth. -/
def stopAt (truth : Bool) (v : Value) (acc : Option Value) (_ : Value) (given : Bool) :
    ForInStep (Option Value) :=
  if given == truth then .done (Option.some v) else .yield acc

section Rounds

variable (m : Machine) (fn : Value)

theorem foldItems_round {σ : Type} (k : Value → σ → Value → Bool → ForInStep σ) (v : Value)
    (rest : List Value) (acc : σ) :
    foldItems (round m fn k) (v :: rest) acc =
      m.call fn [v] >>= fun w => truthy w >>= fun truth =>
        match k v acc w truth with
        | .done acc => pure acc
        | .yield acc => foldItems (round m fn k) rest acc := by
  conv_lhs => unfold foldItems
  conv_lhs => arg 1; unfold round
  refine (bind_assoc _ _ _).trans (bind_congr fun w => ?_)
  exact (bind_assoc _ _ _).trans (bind_congr fun truth => rfl)

theorem test_bind {α : Type} (v : Value) (f : Bool → Action α) :
    test m fn v >>= f = m.call fn [v] >>= fun w => truthy w >>= f :=
  bind_assoc _ _ _

/-- The truth of a value that does not matter. -/
theorem truthy_bind_const {α : Type} (w : Value) (a : Action α) :
    (truthy w >>= fun _ => a) = a :=
  rfl

theorem foldItems_map (items : List Value) (acc : Array Value) :
    foldItems (round m fn fun _ acc w _ => .yield (acc.push w)) items acc =
      items.mapM (fun v => m.call fn [v]) >>= fun ws => pure (acc ++ ws.toArray) := by
  induction items generalizing acc with
  | nil => simp [foldItems]
  | cons v rest ih =>
    rw [foldItems_round, List.mapM_cons]
    simp only [ih, truthy_bind_const, bind_assoc, pure_bind]
    simp

theorem foldItems_filter (items : List Value) (acc : List Value) :
    foldItems (round m fn fun v acc _ truth => .yield (if truth then acc.push v else acc)) items
        acc.reverse.toArray =
      items.filterAuxM (test m fn) acc >>= fun kept => pure kept.reverse.toArray := by
  induction items generalizing acc with
  | nil => simp [foldItems, List.filterAuxM]
  | cons v rest ih =>
    rw [foldItems_round]
    unfold List.filterAuxM
    rw [bind_assoc, test_bind]
    refine bind_congr fun w => bind_congr fun truth => ?_
    cases truth with
    | true => simpa using ih (v :: acc)
    | false => exact ih acc

theorem foldItems_forEach (items : List Value) :
    foldItems (round m fn fun _ _ _ _ => .yield ()) items () =
      items.forM fun v => m.call fn [v] >>= fun _ => pure () := by
  induction items with
  | nil => rfl
  | cons v rest ih =>
    rw [foldItems_round]
    simp only [ih, truthy_bind_const]
    show _ = (m.call fn [v] >>= fun _ => pure ()) >>= fun _ => rest.forM _
    rw [bind_assoc]
    rfl

/-- The first element for which the callback gives something true. -/
theorem foldItems_find (items : List Value) :
    foldItems (round m fn (stopAt true)) items none = items.findM? (test m fn) := by
  induction items with
  | nil => rfl
  | cons v rest ih =>
    rw [foldItems_round]
    unfold List.findM?
    rw [test_bind]
    refine bind_congr fun w => bind_congr fun truth => ?_
    cases truth with
    | true => rfl
    | false => exact ih

/-- Something is true of one of the elements if it is true of a first one. -/
theorem anyM_eq_findM? (p : Value → Action Bool) (items : List Value) :
    items.anyM p = items.findM? p >>= fun found => pure found.isSome := by
  induction items with
  | nil => rfl
  | cons v rest ih =>
    unfold List.anyM List.findM?
    rw [bind_assoc]
    refine bind_congr fun truth => ?_
    cases truth with
    | true => rfl
    | false => exact ih

theorem foldItems_every (items : List Value) :
    (foldItems (round m fn (stopAt false)) items none >>= fun found => pure found.isNone) =
      items.allM (test m fn) := by
  induction items with
  | nil => rfl
  | cons v rest ih =>
    rw [foldItems_round, bind_assoc]
    unfold List.allM
    rw [test_bind]
    refine bind_congr fun w => (bind_assoc _ _ _).trans (bind_congr fun truth => ?_)
    cases truth with
    | true => exact ih
    | false => rfl

theorem firstElement_list (r : ListRef) (truth : Bool) :
    SequenceMethod.firstElement m (.list r) fn truth =
      Cursor.fold (round m fn (stopAt truth)) m.fuel (.list r 0) none := by
  show Cursor.fold _ m.fuel (.list r 0) none = _
  congr 1
  funext v acc
  unfold round
  refine bind_congr fun w => bind_congr fun given => ?_
  cases given <;> cases truth <;> rfl

/-- Every method goes through the elements in rounds and then makes a value of what it has
collected, which always succeeds. -/
theorem exists_rounds (visit : Visit) :
    ∃ (σ : Type) (k : Value → σ → Value → Bool → ForInStep σ) (init : σ)
      (finish : σ → Action Value), visit.Follows k ∧ (∀ acc s, finish acc s ≠ .exhausted) ∧
        (∀ r, visit.method.call m [.list r, fn] [] =
          Cursor.fold (round m fn k) m.fuel (.list r 0) init >>= finish) ∧
        ∀ items, visit.onItems m fn items = foldItems (round m fn k) items init >>= finish := by
  cases visit with
  | map =>
    refine ⟨Array Value, fun _ acc w _ => .yield (acc.push w), #[], newList,
      fun _ acc w _ => ⟨acc.push w, rfl⟩, fun _ _ => nofun, fun r => rfl, fun items => ?_⟩
    rw [foldItems_map]
    simp only [bind_assoc, pure_bind, Array.empty_append]
    rfl
  | filter =>
    refine ⟨Array Value, fun v acc _ truth => .yield (if truth then acc.push v else acc), #[],
      newList, fun v acc _ truth => ⟨if truth then acc.push v else acc, rfl⟩, fun _ _ => nofun,
      fun r => rfl, fun items => ?_⟩
    have hfold := foldItems_filter m fn items []
    rw [show #[] = ([] : List Value).reverse.toArray from rfl, hfold]
    unfold onItems List.filterM
    simp only [bind_assoc, pure_bind]
  | forEach =>
    refine ⟨Unit, fun _ _ _ _ => .yield (), (), fun _ => pure .undefined,
      fun _ _ _ _ => ⟨(), rfl⟩, fun _ _ => nofun, fun r => rfl, fun items => ?_⟩
    rw [foldItems_forEach]
    rfl
  | find =>
    refine ⟨Option Value, stopAt true, none, fun found => pure (found.getD .undefined),
      fun v acc w truth => ?_, fun _ _ => nofun, fun r => ?_, fun items => ?_⟩
    · cases truth <;> exact ⟨_, rfl⟩
    · rw [← firstElement_list]
      rfl
    · rw [foldItems_find]
      rfl
  | some =>
    refine ⟨Option Value, stopAt true, none, fun found => pure (.bool found.isSome),
      fun v acc w truth => ?_, fun _ _ => nofun, fun r => ?_, fun items => ?_⟩
    · cases truth <;> exact ⟨_, rfl⟩
    · rw [← firstElement_list]
      rfl
    · rw [foldItems_find]
      unfold onItems
      rw [anyM_eq_findM?, bind_assoc]
      rfl
  | every =>
    refine ⟨Option Value, stopAt false, none, fun found => pure (.bool found.isNone),
      fun v acc w truth => ?_, fun _ _ => nofun, fun r => ?_, fun items => ?_⟩
    · cases truth <;> exact ⟨_, rfl⟩
    · rw [← firstElement_list]
      rfl
    · unfold onItems
      rw [← foldItems_every, bind_assoc]
      rfl

end Rounds

/-! ## On the way through a list -/

section Walking

variable (visit : Visit) (fn : Value) (r : ListRef)

/-- The method, called in the store `s`, comes to the position `i` of the list, in the store `t`. -/
inductive Reaches (s : Store) : Nat → Store → Prop where
  | start : Reaches s 0 s
  | next {i n : Nat} {t u : Store} {v w : Value} (h : Reaches s i t)
    (hv : (t.list r)[i]? = Option.some v) (hcall : call n fn [v] t = .done w u)
    (hon : visit.goesOn (u.truthy w)) : Reaches s (i + 1) u

/-- The elements after a position, as a relation between what a callback finds there and what it
leaves there, wherever the method calls back with the element at the position. -/
def Leaves (s : Store) (R : List Value → List Value → Prop) : Prop :=
  ∀ i t v n w u, Reaches visit fn r s i t → (t.list r)[i]? = Option.some v →
    call n fn [v] t = .done w u →
      R ((u.list r).toList.drop (i + 1)) ((t.list r).toList.drop (i + 1))

/-- Every callback ends, with a value or an error. -/
def Ends (s : Store) : Prop :=
  ∀ i t v, Reaches visit fn r s i t → (t.list r)[i]? = Option.some v →
    ∃ n, call n fn [v] t ≠ .exhausted

/-- From the position on, the callbacks get these elements until the method stops, whatever comes
after that. -/
inductive Visits : Nat → Store → List Value → Prop where
  | finished {i : Nat} {t : Store} (h : (t.list r)[i]? = none) : Visits i t []
  | stopped {i : Nat} {t : Store} {v : Value} (rest : List Value)
    (hv : (t.list r)[i]? = Option.some v)
    (hstop : ∀ n w u, call n fn [v] t = .done w u → ¬ visit.goesOn (u.truthy w)) :
    Visits i t (v :: rest)
  | next {i n : Nat} {t u : Store} {v w : Value} {rest : List Value}
    (hv : (t.list r)[i]? = Option.some v) (hcall : call n fn [v] t = .done w u)
    (hon : visit.goesOn (u.truthy w)) (h : Visits (i + 1) u rest) : Visits i t (v :: rest)

variable {visit fn r} {s t : Store} {i : Nat}

/-- Where callbacks leave at most elements that were there, the method visits some of the elements,
and all of them where callbacks leave them alone. -/
theorem exists_visits (hreach : Reaches visit fn r s i t)
    (hleaves : visit.Leaves fn r s List.Sublist) :
    ∃ visited, Visits visit fn r i t visited ∧ visited.Sublist ((t.list r).toList.drop i) ∧
      (visit.Leaves fn r s Eq → visited = (t.list r).toList.drop i) := by
  -- What is left after the position gets shorter, also where callbacks take elements away.
  induction hlength : ((t.list r).toList.drop i).length using Nat.strongRecOn
    generalizing i t with
  | ind length ih =>
    cases hv : (t.list r)[i]? with
    | none =>
      have hnil : (t.list r).toList.drop i = [] := by
        rw [List.drop_eq_nil_iff, Array.length_toList]
        exact Array.getElem?_eq_none_iff.mp hv
      rw [hnil]
      exact ⟨[], .finished hv, .refl [], fun _ => rfl⟩
    | some v =>
      have hdrop : (t.list r).toList.drop i = v :: (t.list r).toList.drop (i + 1) := by
        obtain ⟨hi, rfl⟩ := Array.getElem?_eq_some_iff.mp hv
        rw [List.drop_eq_getElem_cons (by simpa using hi), Array.getElem_toList]
      rw [hdrop]
      by_cases hon : ∃ n w u, call n fn [v] t = .done w u ∧ visit.goesOn (u.truthy w)
      · obtain ⟨n, w, u, hcall, hon⟩ := hon
        have hsub := hleaves i t v n w u hreach hv hcall
        have hshorter : ((u.list r).toList.drop (i + 1)).length < length := by
          have hle := hsub.length_le
          rw [← hlength, hdrop, List.length_cons]
          omega
        obtain ⟨visited, hvisits, hvisited, hall⟩ :=
          ih _ hshorter (hreach.next hv hcall hon) rfl
        refine ⟨v :: visited, .next hv hcall hon hvisits, (hvisited.trans hsub).cons_cons v, ?_⟩
        intro hkeeps
        rw [hall hkeeps, hkeeps i t v n w u hreach hv hcall]
      · -- The method stops here, and may as well be given what comes after.
        refine ⟨_, .stopped _ hv fun n w u hcall hgoes => hon ⟨n, w, u, hcall, hgoes⟩,
          .refl _, fun _ => rfl⟩

section Folding

variable {σ : Type} {k : Value → σ → Value → Bool → ForInStep σ} {acc : σ}

theorem round_done {n : Nat} {v : Value} {u : Store} {result : ForInStep σ}
    (h : round (machine n) fn k v acc t = .done result u) :
    ∃ w, call n fn [v] t = .done w u ∧ result = k v acc w (u.truthy w) := by
  obtain ⟨w, u', hcall, hrest⟩ := bind_eq_done.mp h
  cases hrest
  exact ⟨w, hcall, rfl⟩

/-- With enough rounds, going through the list is going through the elements that are visited. -/
theorem Visits.fold_eq (hk : visit.Follows k) {visited : List Value}
    (h : Visits visit fn r i t visited) (n : Nat) {rounds : Nat} (acc : σ)
    (hrounds : visited.length < rounds) :
    Cursor.fold (round (machine n) fn k) rounds (.list r i) acc t =
      foldItems (round (machine n) fn k) visited acc t := by
  induction h generalizing rounds acc with
  | finished hnone =>
    obtain ⟨rounds, rfl⟩ : ∃ m, rounds = m + 1 := ⟨rounds - 1, by omega⟩
    exact Cursor.fold_list_none _ rounds acc hnone
  | stopped rest hv hstop =>
    obtain ⟨rounds, rfl⟩ : ∃ m, rounds = m + 1 := ⟨rounds - 1, by omega⟩
    rw [Cursor.fold_list_some _ rounds acc hv]
    refine bind_eq_of_done fun result u hround => ?_
    obtain ⟨w, hcall, rfl⟩ := round_done hround
    obtain ⟨acc', hacc⟩ := hk _ acc w (u.truthy w)
    rw [hacc, if_neg (hstop n w u hcall)]
  | @next i n' t u v w rest hv hcall hon _ ih =>
    rw [List.length_cons] at hrounds
    obtain ⟨rounds, rfl⟩ : ∃ m, rounds = m + 1 := ⟨rounds - 1, by omega⟩
    rw [Cursor.fold_list_some _ rounds acc hv]
    refine bind_eq_of_done fun result u' hround => ?_
    obtain ⟨w', hcall', rfl⟩ := round_done hround
    obtain ⟨rfl, rfl⟩ := Concludes.value_unique (.call fn [v]) hcall hcall'
    obtain ⟨acc', hacc⟩ := hk v acc w (u.truthy w)
    rw [hacc, if_pos hon]
    exact ih acc' (by omega)

/-- Going through the elements that are visited ends with enough steps if all callbacks do. -/
theorem Visits.ends {visited : List Value} (h : Visits visit fn r i t visited)
    (hreach : Reaches visit fn r s i t) (hends : visit.Ends fn r s) :
    ∃ enough, ∀ n ≥ enough, ∀ (σ : Type) (k : Value → σ → Value → Bool → ForInStep σ) (acc : σ),
      visit.Follows k → foldItems (round (machine n) fn k) visited acc t ≠ .exhausted := by
  have hround : ∀ {n : Nat} {v : Value} {rest : List Value} {t : Store} {σ : Type}
      {k : Value → σ → Value → Bool → ForInStep σ} {acc : σ}, call n fn [v] t ≠ .exhausted →
      (∀ w u, call n fn [v] t = .done w u → (match k v acc w (u.truthy w) with
        | .done acc => pure acc
        | .yield acc => foldItems (round (machine n) fn k) rest acc : Action σ) u ≠ .exhausted) →
      foldItems (round (machine n) fn k) (v :: rest) acc t ≠ .exhausted := by
    intro n v rest t σ k acc hcall hnext
    rw [foldItems_round]
    exact bind_ne_exhausted hcall hnext
  induction h with
  | finished _ => exact ⟨0, fun _ _ _ _ _ _ => nofun⟩
  | @stopped i t v rest hv hstop =>
    obtain ⟨enough, henough⟩ := hends i t v hreach hv
    refine ⟨enough, fun n hn σ k acc hk => ?_⟩
    refine hround (Increasing.ne_exhausted (.call fn [v]) hn henough) fun w u hcall => ?_
    obtain ⟨acc', hacc⟩ := hk v acc w (u.truthy w)
    rw [hacc, if_neg (hstop n w u hcall)]
    exact nofun
  | @next i n' t u v w rest hv hcall hon _ ih =>
    obtain ⟨enough, hrest⟩ := ih (hreach.next hv hcall hon)
    refine ⟨max n' enough, fun n hn σ k acc hk => ?_⟩
    have hended : call n' fn [v] t ≠ .exhausted := by
      rw [hcall]
      exact nofun
    refine hround (Increasing.ne_exhausted (.call fn [v]) (by omega) hended) fun w' u' hcall' => ?_
    obtain ⟨rfl, rfl⟩ := Concludes.value_unique (.call fn [v]) hcall hcall'
    obtain ⟨acc', hacc⟩ := hk v acc w (u.truthy w)
    rw [hacc, if_pos hon]
    exact hrest n (by omega) σ k acc' hk

end Folding

end Walking

/-! ## Snapshots -/

/-- If callbacks leave after the element they get at most elements that were there, a method that
calls back does what it does with some of the elements that the list has at the beginning, each of
them at most once and in order, and ends if all callbacks end. If callbacks leave the elements after
the one they get alone, it is all the elements. -/
theorem visit_spec {visit : Visit} {fn : Value} {r : ListRef} {s : Store}
    (h : visit.Leaves fn r s List.Sublist) :
    ∃ visited, visited.Sublist (s.list r).toList ∧
      (visit.Leaves fn r s Eq → visited = (s.list r).toList) ∧
      (∀ n, visited.length < n → visit.method.call (machine n) [.list r, fn] [] s =
        visit.onItems (machine n) fn visited s) ∧
      (visit.Ends fn r s → ∃ n, visit.method.call (machine n) [.list r, fn] [] s ≠ .exhausted) := by
  obtain ⟨visited, hvisits, hsub, hall⟩ := exists_visits .start h
  have hsame : ∀ n, visited.length < n → visit.method.call (machine n) [.list r, fn] [] s =
      visit.onItems (machine n) fn visited s := by
    intro n hn
    obtain ⟨σ, k, init, finish, hk, -, hmethod, hitems⟩ := exists_rounds (machine n) fn visit
    have hfold : Cursor.fold (round (machine n) fn k) (machine n).fuel (.list r 0) init s =
        foldItems (round (machine n) fn k) visited init s := hvisits.fold_eq hk n init hn
    rw [hmethod, hitems, bind_apply, bind_apply, hfold]
  refine ⟨visited, hsub, hall, hsame, fun hends => ?_⟩
  obtain ⟨enough, hfold⟩ := hvisits.ends .start hends
  have hn : visited.length < max enough (visited.length + 1) := by omega
  refine ⟨max enough (visited.length + 1), ?_⟩
  rw [hsame _ hn]
  obtain ⟨σ, k, init, finish, hk, hfinish, -, hitems⟩ := exists_rounds (machine _) fn visit
  rw [hitems]
  exact bind_ne_exhausted (hfold _ (by omega) σ k init hk) fun acc u _ => hfinish acc u

/-- A list whose first element is a position in it. -/
def countingStore : Store := { Store.empty [] with lists := #[#[.int 0, .int 5]] }

/-- A method of the first list. -/
def ofFirst (method : ListMethod) : Value := .method (.list ⟨0⟩) (.list method) 0

/-- A callback that takes the element at a position out of the list itself. -/
theorem visit_spec_pop :
    Visit.map.Leaves (ofFirst .pop) ⟨0⟩ countingStore List.Sublist ∧
      ∃ visited, visited.Sublist [.int 0, .int 5] ∧ ∀ n, visited.length < n →
        SequenceMethod.map.call (machine n) [.list ⟨0⟩, ofFirst .pop] [] countingStore =
          Visit.map.onItems (machine n) (ofFirst .pop) visited countingStore := by
  have hpop : call 1 (ofFirst .pop) [.int 0] countingStore =
      .done (.int 0) (countingStore.setList ⟨0⟩ #[.int 5]) := rfl
  have hplaces : ∀ i t, Reaches .map (ofFirst .pop) ⟨0⟩ countingStore i t →
      i = 0 ∧ t = countingStore ∨ i = 1 ∧ t = countingStore.setList ⟨0⟩ #[.int 5] := by
    intro i t hreach
    induction hreach with
    | start => exact .inl ⟨rfl, rfl⟩
    | next _ hv hcall _ ih =>
      obtain ⟨rfl, rfl⟩ | ⟨rfl, rfl⟩ := ih
      · cases hv
        obtain ⟨-, rfl⟩ := Concludes.value_unique (.call _ _) hcall hpop
        exact .inr ⟨rfl, rfl⟩
      · cases hv
  have hleaves : Visit.map.Leaves (ofFirst .pop) ⟨0⟩ countingStore List.Sublist := by
    intro i t v n w u hreach hv hcall
    obtain ⟨rfl, rfl⟩ | ⟨rfl, rfl⟩ := hplaces i t hreach
    · cases hv
      obtain ⟨-, rfl⟩ := Concludes.value_unique (.call _ _) hcall hpop
      exact List.nil_sublist _
    · cases hv
  obtain ⟨visited, hsub, -, hsame, -⟩ := visit_spec hleaves
  exact ⟨hleaves, visited, hsub, hsame⟩

/-- A list with a list with a list. -/
def nestedStore : Store := { Store.empty [] with lists := #[#[.list ⟨1⟩], #[.list ⟨2⟩], #[]] }

theorem call_append (n : Nat) (v : Value) (t : Store) :
    call (n + 1) (ofFirst .append) [v] t =
      .done .nil (t.setList ⟨0⟩ ((t.list ⟨0⟩).toList ++ [v]).toArray) :=
  rfl

/-- There is always an element left if every round adds one. -/
theorem fold_append_exhausted {σ : Type} {k : Value → σ → Value → Bool → ForInStep σ}
    (hk : Visit.forEach.Follows k) (n rounds : Nat) {i : Nat} {t : Store} (acc : σ)
    (hlists : 0 < t.lists.size) (hi : i < (t.list ⟨0⟩).size) :
    Cursor.fold (round (machine (n + 1)) (ofFirst .append) k) rounds (.list ⟨0⟩ i) acc t =
      .exhausted := by
  induction rounds generalizing i t acc with
  | zero => rfl
  | succ rounds ih =>
    obtain ⟨v, hv⟩ : ∃ v, (t.list ⟨0⟩)[i]? = Option.some v := ⟨_, Array.getElem?_eq_getElem hi⟩
    have hround : round (machine (n + 1)) (ofFirst .append) k v acc t =
        .done (k v acc .nil false) (t.setList ⟨0⟩ ((t.list ⟨0⟩).toList ++ [v]).toArray) :=
      bind_of_done (call_append n v t)
    obtain ⟨acc', hacc⟩ := hk v acc .nil false
    rw [Cursor.fold_list_some _ rounds acc hv, bind_of_done hround, hacc]
    refine ih acc' ?_ ?_
    · exact Nat.lt_of_lt_of_eq hlists Array.size_setIfInBounds.symm
    · rw [Store.list_setList hlists, if_pos rfl]
      simpa using hi

/-- A method that calls back gets to see what a callback adds to the list: there are two results for
one element, and there is no end, although every callback ends. -/
theorem visit_live :
    (nestedStore.list ⟨0⟩ = #[.list ⟨1⟩] ∧
      ∃ t, SequenceMethod.map.call (machine 3) [.list ⟨0⟩, ofFirst .extend] [] nestedStore =
        .done (.list ⟨3⟩) t ∧ t.list ⟨3⟩ = #[.nil, .nil]) ∧
    Visit.forEach.Ends (ofFirst .append) ⟨0⟩ countingStore ∧
      ∀ n, SequenceMethod.forEach.call (machine n) [.list ⟨0⟩, ofFirst .append] [] countingStore =
        .exhausted := by
  refine ⟨⟨rfl, _, rfl, rfl⟩, fun i t v _ _ => ⟨1, nofun⟩, fun n => ?_⟩
  obtain ⟨σ, k, init, finish, hk, -, hmethod, -⟩ :=
    exists_rounds (machine n) (ofFirst .append) .forEach
  have hfold : Cursor.fold (round (machine n) (ofFirst .append) k) (machine n).fuel (.list ⟨0⟩ 0)
      init countingStore = .exhausted := by
    cases n with
    | zero => rfl
    | succ n => exact fold_append_exhausted hk n (n + 1) init (by decide) (by decide)
  change Visit.forEach.method.call (machine n) _ _ _ = _
  rw [hmethod, bind_apply, hfold]

end Visit

end Lisplet
