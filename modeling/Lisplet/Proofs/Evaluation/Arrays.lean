import Lisplet.Proofs.Evaluation.Applications
import Lisplet.Proofs.Evaluation.Literals
import Lisplet.Proofs.Property.Retracing
import Lisplet.Proofs.Property.Visible
import Lisplet.Proofs.Scope.Denylist
import Lisplet.Proofs.Sequence.Slicing

/-!
# Arrays from objects

An array that is made from an object with a length has so many elements: what the object has under
each position, as a number or else as a text, or void. A spread of a sequence puts its elements into
an object under the texts of their positions. So the object with these entries and the length of the
sequence gives its elements again, whichever they are.

Main statement: `array_spec`.
-/

namespace Lisplet

open Lisplet.Action

/-! ## Spreads of sequences -/

namespace Property

variable {v : Value} {items : List Value} {s : Store}

theorem distinct_ofItems (items : List Value) : (ofItems items).Distinct :=
  (Dict.WellKeyed.ofTexts _).distinct

/-- A spread of a sequence has an element under the text of its position. -/
theorem getText?_ofItems {i : Nat} {w : Value} (hi : items[i]? = some w) :
    (ofItems items).getText? (toString i) = some w := by
  have hmem : ⟨Key.ofText (toString i), .str (toString i), w⟩ ∈ (ofItems items).entries := by
    rw [entries_ofItems]
    exact List.mem_map_of_mem (List.mk_mem_zipIdx_iff_getElem?.mpr hi)
  exact (distinct_ofItems items).get?_of_mem hmem

/-- It has nothing under the position itself. -/
theorem get?_int_ofItems (items : List Value) (i : Int) : (ofItems items).get? [.int i] = none := by
  have hnone : (ofItems items).entries.find? (·.hash == [.int i]) = none := by
    rw [List.find?_eq_none, entries_ofItems]
    intro e he
    obtain ⟨item, -, rfl⟩ := List.mem_map.mp he
    simp [Key.ofText]
  unfold Dict.get?
  rw [hnone]
  rfl

theorem own_sequence (hv : IsSequence v) (hitems : s.elements v = .ok items) :
    own v s = .done (ofItems items) s := by
  cases v with
  | list | tuple | str | kind =>
    cases hitems
    rfl
  | _ => cases hv

/-- The length of a sequence is the number of its elements. -/
theorem get_length (hv : IsSequence v) (hitems : s.elements v = .ok items)
    (hlength : "length" ∉ s.denylist) :
    get v (.str "length") s = .done (.int items.length) s := by
  have hopen : ¬Forbidden s.denylist (.str "length") := by
    rintro ⟨name, ⟨⟩, h | h⟩
    · exact hlength h
    · exact absurd h (by decide)
  have htext : ∀ (v : Value) (text : String), ofText v text (.str "length") s =
      .done (.int (charValues text).length) s := by
    intro v text
    rw [charValues, List.length_map]
    rfl
  refine (bind_of_done (guardKey_passes hopen)).trans ?_
  cases v with
  | list | tuple =>
    cases hitems
    rfl
  | str | kind =>
    cases hitems
    exact htext _ _
  | _ => cases hv

end Property

/-! ## Names of properties -/

theorem nameSegments_dot (name : String) {key : String} (hkey : '.' ∉ key.toList) :
    nameSegments (name ++ "." ++ key) = nameSegments name ++ [key] := by
  have htext : (name ++ "." ++ key).toList = name.toList ++ '.' :: key.toList := by simp
  unfold nameSegments
  rw [htext, List.splitOn_append_cons_self, List.splitOn_eq_singleton hkey, List.map_append]
  simp

/-- A dot and a key after a name read the property of what the name finds. -/
theorem ScopeRef.get_dot (r : ScopeRef) (name : String) {key : String} (hkey : '.' ∉ key.toList) :
    r.get (name ++ "." ++ key) = r.get name >>= fun v => Property.get v (.str key) := by
  obtain ⟨first, rest, hsegments⟩ := List.exists_cons_of_ne_nil (nameSegments_ne_nil name)
  have hdot : nameSegments (name ++ "." ++ key) = first :: (rest ++ [key]) := by
    rw [nameSegments_dot name hkey, hsegments, List.cons_append]
  rw [get_eq, get_eq, dottedName_eq hsegments, dottedName_eq hdot]
  unfold getAt
  rw [bind_assoc]
  refine bind_congr fun _ => ?_
  rw [bind_assoc]
  refine bind_congr fun found => ?_
  cases found with
  | true =>
    simp only [if_true, List.map_append, List.map_singleton, Property.getPath_concat, bind_assoc]
  | false => rfl

/-! ## Arrays -/

namespace Form

variable {v : Value} {items : List Value} {s : Store}

theorem lengthOf_of_index? {n : Int} (h : v.index? = some n) : lengthOf v = pure n := by
  cases v with
  | bool b => cases h; rfl
  | int i => cases h; rfl
  | _ => cases h

/-- An object with a length has a slot at each position below it. -/
theorem arrayElements_dict {r : DictRef} {n : Int} (hlength : (s.dict r).getText? "length" = some v)
    (hn : v.index? = some n) :
    arrayElements (.dict r) s = .done ((List.range n.toNat).map (slot (s.dict r))) s := by
  have hnullish : v.isNullish = false := by
    cases v <;> first | rfl | cases hn
  have hread : Action.gets (·.dict r) s = .done (s.dict r) s := rfl
  refine (bind_of_done hread).trans ?_
  rw [hlength, Option.getD_some, hnullish, lengthOf_of_index? hn]
  rfl

theorem slot_sequence {i : Nat} {w : Value} (hi : items[i]? = some w) (length : Value) :
    slot ((Property.ofItems items).insertText "length" length) i = w := by
  unfold slot
  have hne : toString i ≠ "length" := by
    intro h
    have hdigits := Property.isDigits_toString i
    rw [h] at hdigits
    exact absurd hdigits (by decide)
  rw [Dict.getText?_insertText, if_neg hne, Property.getText?_ofItems hi, Dict.insertText,
    Dict.get?_insert, if_neg (by simp [Key.ofText]), Property.get?_int_ofItems]
  rfl

/-- The entries of a spread and the length give the elements of the sequence. -/
theorem arrayElements_sequence {r : DictRef}
    (h : s.dict r = (Property.ofItems items).insertText "length" (.int items.length)) :
    arrayElements (.dict r) s = .done items s := by
  have hlength : (s.dict r).getText? "length" = some (.int items.length) := by
    rw [h, Dict.getText?_insertText, if_pos rfl]
  rw [arrayElements_dict hlength rfl, h]
  refine congrArg (Outcome.done · s) (List.ext_getElem ?_ fun i hi hi' => ?_)
  · simp
  · rw [List.getElem_map, List.getElem_range, slot_sequence (List.getElem?_eq_getElem hi')]

theorem run_array (m : Machine) (scope : Value) (e : Expr) :
    Form.array.run m scope [.node e] = m.eval scope (.node e) >>= fun v =>
      arrayElements v >>= fun items => newList items.toArray :=
  rfl

/-- An object of the entries of a spread and the length of what was spread. -/
def lengthened (name : String) (spread key length mark : Mark) : Expr :=
  .group .object [.leaf .rest name spread, .leaf .key "length" key,
    .leaf .identifier (name ++ "." ++ "length") length] mark

theorem eval_lengthened {r : ScopeRef} {name : String} (hname : r.get name s = .done v s)
    (hv : Property.IsSequence v) (hitems : s.elements v = .ok items) (hopen : "length" ∉ s.denylist)
    (spread key length mark : Mark) :
    eval 3 (.scope r) (.node (lengthened name spread key length mark)) s =
      .done (.dict ⟨s.dicts.size⟩)
        (s.addDict ((Property.ofItems items).insertText "length" (.int items.length))).2 := by
  have hlookup : (machine 2).lookup (.scope r) (.str name) s = .done v s := hname
  have hlength : (machine 2).eval (.scope r)
      (.node (.leaf .identifier (name ++ "." ++ "length") length)) s =
        .done (.int items.length) s := by
    show r.get (name ++ "." ++ "length") s = _
    rw [r.get_dot name (by decide), bind_of_done hname, Property.get_length hv hitems hopen]
  have hentries : (machine 2).entries (.scope r) [.node (.leaf .rest name spread),
      .node (.leaf .key "length" key),
      .node (.leaf .identifier (name ++ "." ++ "length") length)] s =
        .done ((Property.ofItems items).insertText "length" (.int items.length)) s := by
    unfold Machine.entries
    rw [Machine.entriesInto_spread, bind_of_done hlookup,
      bind_of_done (Property.own_sequence hv hitems), Machine.entriesInto_key,
      Dict.empty_update (Property.distinct_ofItems items)]
    exact bind_of_done hlength
  exact bind_of_done hentries

/-- An array of such an object has the elements of the sequence. -/
theorem Core.concludes_lengthened {r : ScopeRef} {name : String} (h : Form.array.Core r s)
    (hname : r.get name s = .done v s) (hv : Property.IsSequence v)
    (hitems : s.elements v = .ok items) (hopen : "length" ∉ s.denylist)
    (head mark spread key length inner : Mark) :
    ∃ l t, Concludes (eval · (.scope r)
      (.node (Form.array.callNode head mark [lengthened name spread key length inner]))) s
        (.value (.list l) t) ∧ t.Sequence (.list l) items := by
  let t := (s.addDict ((Property.ofItems items).insertText "length" (.int items.length))).2
  have hdict : t.dict ⟨s.dicts.size⟩ =
      (Property.ofItems items).insertText "length" (.int items.length) := by
    simp [t, Store.dict, Store.addDict]
  refine ⟨⟨t.lists.size⟩, (t.addList items.toArray).2, ?_, t.sequence_newList items⟩
  refine (h.concludes_callNode _ _ _).mpr ⟨3, Outcome.conclusion?_eq_value.mpr ?_⟩
  have hobject : (machine 3).eval (.scope r) (.node (lengthened name spread key length inner)) s =
      .done (.dict ⟨s.dicts.size⟩) t :=
    eval_lengthened hname hv hitems hopen spread key length inner
  show Form.array.run (machine 3) (.scope r) [.node _] s = _
  rw [run_array, bind_of_done hobject, bind_of_done (arrayElements_sequence hdict)]
  rfl

/-- An array undoes a spread: an object with the entries that a spread takes over from a sequence
and with its length gives the elements of the sequence. In general an array of an object with an
integer length has so many elements, and under each position what the object has under the integer,
or else what it has under the text of it, or else void. -/
theorem array_spec :
    (∀ s v items, Property.IsSequence v → s.elements v = .ok items →
      ∃ d, Property.own v s = .done d s ∧
        ∀ (t : Store) (r : DictRef), t.dict r = d.insertText "length" (.int items.length) →
          arrayElements (.dict r) t = .done items t) ∧
    (∀ s v items r name, Property.IsSequence v → s.elements v = .ok items →
      Form.array.Core r s → r.get name s = .done v s → "length" ∉ s.denylist →
      ∀ head mark spread key length inner, ∃ l t, Concludes (eval · (.scope r)
        (.node (Form.array.callNode head mark [lengthened name spread key length inner]))) s
          (.value (.list l) t) ∧ t.Sequence (.list l) items) ∧
    ∀ (s : Store) (r : DictRef) (v : Value) (n : Int),
      (s.dict r).getText? "length" = some v → v.index? = some n →
      ∃ items, arrayElements (.dict r) s = .done items s ∧ (items.length : Int) = max n 0 ∧
        ∀ i < items.length,
          (∀ w, (s.dict r).get? [.int i] = some w → items[i]? = some w) ∧
          ((s.dict r).get? [.int i] = none →
            items[i]? = some (((s.dict r).getText? (toString i)).getD .undefined)) := by
  refine ⟨fun s v items hv hitems => ?_, fun s v items r name hv hitems h hname hopen => ?_,
    fun s r v n hlength hn => ?_⟩
  · exact ⟨_, Property.own_sequence hv hitems, fun t r h => arrayElements_sequence h⟩
  · exact h.concludes_lengthened hname hv hitems hopen
  · refine ⟨_, arrayElements_dict hlength hn, ?_, fun i hi => ?_⟩
    · rw [List.length_map, List.length_range]
      omega
    · rw [List.length_map, List.length_range] at hi
      rw [List.getElem?_map, List.getElem?_range hi, Option.map_some, slot]
      exact ⟨fun w hw => by rw [hw]; rfl, fun hnone => by rw [hnone]; rfl⟩

/-- A store with a list that has void and nil in it, and an object that has a position as a number
and as a text. -/
def spreadStore : Store :=
  { Store.empty [] with
    lists := #[#[.undefined, .nil, .str "a"]]
    dicts := #[.ofTexts [("array", .form .array), ("xs", .list ⟨0⟩)],
      (Dict.ofTexts [("0", .str "text"), ("1", .nil), ("length", .int 3)]).insert [.int 0] (.int 0)
        (.str "number")]
    scopes := #[⟨.dict ⟨0⟩, .nil, .nil⟩] }

/-- Void and nil are elements like others. A number is looked for before a text, and what is neither
there as the one nor the other is void. -/
theorem array_spec_void :
    (∃ d, Property.own (.list ⟨0⟩) spreadStore = .done d spreadStore ∧
      ∀ (t : Store) (r : DictRef), t.dict r = d.insertText "length" (.int 3) →
        arrayElements (.dict r) t = .done [.undefined, .nil, .str "a"] t) ∧
    (∃ l t, Concludes (eval · (.scope ⟨0⟩) (.node (Form.array.callNode default default
        [lengthened "xs" default default default default]))) spreadStore (.value (.list l) t) ∧
      t.Sequence (.list l) [.undefined, .nil, .str "a"]) ∧
    ∃ items, arrayElements (.dict ⟨1⟩) spreadStore = .done items spreadStore ∧ items.length = 3 ∧
      items[0]? = some (.str "number") ∧ items[1]? = some .nil ∧ items[2]? = some .undefined := by
  obtain ⟨hspread, hcall, hslots⟩ := array_spec
  obtain ⟨items, hitems, hlength, hget⟩ := hslots spreadStore ⟨1⟩ (.int 3) 3 rfl rfl
  have hsize : items.length = 3 := by omega
  refine ⟨hspread spreadStore (.list ⟨0⟩) [.undefined, .nil, .str "a"] trivial rfl,
    hcall spreadStore (.list ⟨0⟩) [.undefined, .nil, .str "a"] ⟨0⟩ "xs" trivial rfl ⟨rfl, rfl⟩ rfl
      List.not_mem_nil default default default default default default,
    items, hitems, hsize, ?_, ?_, ?_⟩
  · exact (hget 0 (by omega)).1 _ rfl
  · exact (hget 1 (by omega)).2 rfl
  · exact (hget 2 (by omega)).2 rfl

end Form

end Lisplet
