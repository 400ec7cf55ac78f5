import Lisplet.Proofs.Evaluation.Patterns
import Lisplet.Proofs.Evaluation.Literals
import Lisplet.Proofs.Property.Places

/-!
# Object patterns

A pattern of bare names with a rest parts a dictionary in two: each name is bound to what the
dictionary has under it, or to void, and the rest to a new dictionary of all other entries in their
order. An object literal of the names with their values and a spread of the rest puts the
dictionary together again, with void under the names that it lacked.

Main statement: `partition_spec`.
-/

namespace Lisplet

open Lisplet.Action

/-! ## Entries that are left over -/

namespace Dict

variable {d : Dict} {keys : List Key} {hash : Key}

theorem filter_insertEntry {e : Entry} (h : e.hash ∈ keys) (entries : List Entry) :
    (insertEntry e entries).filter (fun e => !keys.contains e.hash) =
      entries.filter fun e => !keys.contains e.hash := by
  have hdrop : ∀ (f : Entry) (rest : List Entry), f.hash = e.hash →
      (f :: rest).filter (fun e => !keys.contains e.hash) =
        rest.filter fun e => !keys.contains e.hash := by
    intro f rest hf
    exact List.filter_cons_of_neg (by simp [hf, h])
  induction entries with
  | nil => exact hdrop e [] rfl
  | cons f rest ih =>
    rw [insertEntry]
    by_cases hf : f.hash = e.hash
    · rw [if_pos (by simpa using hf), hdrop f rest hf]
      exact hdrop _ rest hf
    · rw [if_neg (by simpa using hf), List.filter_cons, List.filter_cons, ih]

/-- What is put under selected keys is not left over. -/
theorem unselected_insertTexts {pairs : List (String × Value)} (d : Dict)
    (h : ∀ name ∈ pairs.map Prod.fst, Key.ofText name ∈ keys) :
    Pattern.unselected (d.insertTexts pairs) keys = Pattern.unselected d keys := by
  induction pairs generalizing d with
  | nil => rfl
  | cons pair pairs ih =>
    rw [List.map_cons, List.forall_mem_cons] at h
    refine (ih (d.insertText pair.1 pair.2) h.2).trans ?_
    exact congrArg Dict.mk (filter_insertEntry h.1 d.entries)

theorem Distinct.unselected (h : d.Distinct) (keys : List Key) :
    (Pattern.unselected d keys).Distinct :=
  List.Nodup.sublist (List.filter_sublist.map _) h

theorem get?_unselected (d : Dict) (keys : List Key) (hash : Key) :
    (Pattern.unselected d keys).get? hash = if hash ∈ keys then none else d.get? hash := by
  unfold Pattern.unselected Dict.get?
  induction d.entries with
  | nil => simp
  | cons e rest ih =>
    by_cases he : e.hash ∈ keys
    · rw [List.filter_cons_of_neg (by simp [he]), ih]
      by_cases hh : hash ∈ keys
      · rw [if_pos hh, if_pos hh]
      · have hne : e.hash ≠ hash := fun heq => hh (heq ▸ he)
        rw [if_neg hh, if_neg hh, List.find?_cons_of_neg (by simpa using hne)]
    · rw [List.filter_cons_of_pos (by simp [he])]
      by_cases hh : e.hash = hash
      · rw [List.find?_cons_of_pos (by simpa using hh), List.find?_cons_of_pos (by simpa using hh),
          if_neg (hh ▸ he)]
      · rw [List.find?_cons_of_neg (by simpa using hh), List.find?_cons_of_neg (by simpa using hh),
          ih]

end Dict

/-! ## Patterns -/

/-- An object pattern of bare names, all of them different: names of properties that may be read,
and one for the rest. -/
structure PropertyPattern (denylist : List String) where
  names : List String
  rest : String
  bare : ∀ name ∈ names ++ [rest], BareName denylist name
  not_reserved : ∀ name ∈ names, Property.isReserved name = false
  nodup : (names ++ [rest]).Nodup

/-- What is bound to names for the properties of a dictionary. -/
def properties (content : Dict) (names : List String) : List (String × Value) :=
  names.map fun name => (name, (content.getText? name).getD .undefined)

theorem map_fst_properties (content : Dict) (names : List String) :
    (properties content names).map Prod.fst = names := by
  unfold properties
  rw [List.map_map]
  exact List.map_id names

/-- A name that is bound in the dictionary itself does not change what is bound to others. -/
theorem properties_insertText {content : Dict} {name : String} {names : List String}
    (h : name ∉ names) (value : Value) :
    properties (content.insertText name value) names = properties content names := by
  refine List.map_congr_left fun other hother => ?_
  have hne : other ≠ name := fun heq => h (heq ▸ hother)
  rw [Dict.getText?_insertText, if_neg hne]

namespace Pattern

variable {m : Machine} {r : ScopeRef} {d q : DictRef} {s : Store}

/-! ## Binding -/

theorem bindProperty_identifier {name : String} (mark : Mark) (selected : List Key)
    (hvars : (s.scope r).vars = .dict d) (hname : BareName s.denylist name)
    (hopen : Property.isReserved name = false) :
    bindProperty m (.scope r) (.dict q) (.node (.leaf .identifier name mark)) selected s =
      .done (.yield (Key.ofText name :: selected))
        (s.setDict d
          ((s.dict d).insertText name (((s.dict q).getText? name).getD .undefined))) := by
  have hpass : ¬Property.Forbidden s.denylist (.str name) := by
    rintro ⟨text, htext, hforbidden⟩
    cases htext
    rcases hforbidden with hmem | hprefix
    · exact hname.2 hmem
    · rw [Property.isReserved_iff.mpr hprefix] at hopen
      cases hopen
  have hget : Property.get (.dict q) (.str name) s =
      .done (((s.dict q).getText? name).getD .undefined) s :=
    Property.get_dict (Property.guardKey_passes hpass) rfl
  have hassign := assign_bare m (((s.dict q).getText? name).getD .undefined) hvars hname
  exact (bind_of_done hget).trans (bind_of_done hassign)

/-- The store after a rest was bound to a new dictionary. -/
def withRemainder (s : Store) (d : DictRef) (name : String) (content : Dict) : Store :=
  (s.addDict content).2.putTexts d [(name, .dict (s.addDict content).1)]

theorem bindProperty_rest {name : String} (mark : Mark) (selected : List Key)
    (hvars : (s.scope r).vars = .dict d) (hname : BareName s.denylist name) :
    bindProperty m (.scope r) (.dict q) (.node (.leaf .rest name mark)) selected s =
      .done (.done selected) (withRemainder s d name (unselected (s.dict q) selected)) := by
  have hvars' : ((s.addDict (unselected (s.dict q) selected)).2.scope r).vars = .dict d := hvars
  have hassign := assign_bare m (.dict (s.addDict (unselected (s.dict q) selected)).1) hvars' hname
  exact bind_of_done hassign

/-- The store after names and a rest were bound to the properties of a dictionary, when some keys
were selected before. -/
def partedStore (s : Store) (d q : DictRef) (names : List String) (rest : String)
    (selected : List Key) : Store :=
  let bound := s.putTexts d (properties (s.dict q) names)
  withRemainder bound d rest
    (unselected (bound.dict q) ((names.map Key.ofText).reverse ++ selected))

theorem partedStore_cons (hd : d.index < s.dicts.size) {name : String} {names : List String}
    (hname : name ∉ names) (rest : String) (selected : List Key) :
    partedStore
        (s.setDict d ((s.dict d).insertText name (((s.dict q).getText? name).getD .undefined)))
        d q names rest (Key.ofText name :: selected) =
      partedStore s d q (name :: names) rest selected := by
  generalize hvalue : ((s.dict q).getText? name).getD .undefined = value
  -- the dictionary may be the one that the names are bound in
  have hproperties : properties ((s.setDict d ((s.dict d).insertText name value)).dict q) names =
      properties (s.dict q) names := by
    rw [Store.dict_setDict hd]
    split
    · next heq => rw [heq, properties_insertText hname]
    · rfl
  have hput : (s.setDict d ((s.dict d).insertText name value)).putTexts d
      (properties (s.dict q) names) = s.putTexts d (properties (s.dict q) (name :: names)) := by
    rw [Store.putTexts_cons hd]
    unfold properties
    rw [List.map_cons, hvalue]
  unfold partedStore
  dsimp only
  rw [hproperties, hput, List.map_cons, List.reverse_cons, List.append_assoc,
    List.singleton_append]

/-- The names are bound one after the other, and the rest after them. -/
theorem foldItems_properties {names : List String} {rest : String} {items : List Expr}
    (h : Spelled names (some rest) items) (hvars : (s.scope r).vars = .dict d)
    (hd : d.index < s.dicts.size) (hbare : ∀ name ∈ names ++ [rest], BareName s.denylist name)
    (hopen : ∀ name ∈ names, Property.isReserved name = false) (hnodup : names.Nodup)
    (selected : List Key) :
    foldItems (bindProperty m (.scope r) (.dict q)) (items.map .node) selected s =
      .done ((names.map Key.ofText).reverse ++ selected) (partedStore s d q names rest selected) := by
  generalize hrest : some rest = last at h
  induction h generalizing s selected with
  | nothing => cases hrest
  | rest name mark =>
    cases hrest
    have hstep := bindProperty_rest (m := m) (q := q) mark selected hvars
      (hbare rest List.mem_cons_self)
    refine (bind_of_done hstep).trans ?_
    show Outcome.done selected _ = .done selected (partedStore s d q [] rest selected)
    have hput : s.putTexts d (properties (s.dict q) []) = s := s.putTexts_nil d
    unfold partedStore
    rw [hput]
    rfl
  | @name name mark names last items h ih =>
    rw [List.nodup_cons] at hnodup
    have hstep := bindProperty_identifier (m := m) (q := q) mark selected hvars
      (hbare name List.mem_cons_self) (hopen name List.mem_cons_self)
    generalize hnext : s.setDict d
      ((s.dict d).insertText name (((s.dict q).getText? name).getD .undefined)) = next at hstep
    have hvars' : (next.scope r).vars = .dict d := by
      rw [← hnext]
      exact hvars
    have hd' : d.index < next.dicts.size := by
      rw [← hnext, Store.size_setDict]
      exact hd
    have hbare' : ∀ other ∈ names ++ [rest], BareName next.denylist other := by
      rw [← hnext]
      exact fun other hother => hbare other (List.mem_cons_of_mem _ hother)
    have hrest' := ih hvars' hd' hbare' (fun other hother => hopen other (List.mem_cons_of_mem _ hother))
      hnodup.2 (Key.ofText name :: selected) hrest
    refine (bind_of_done hstep).trans ?_
    rw [← partedStore_cons hd hnodup.1, hnext, List.map_cons, List.reverse_cons,
      List.append_assoc]
    exact hrest'

/-! ## What is bound afterwards -/

theorem dict_putTexts (hd : d.index < s.dicts.size) (pairs : List (String × Value)) (q : DictRef) :
    (s.putTexts d pairs).dict q = if q = d then (s.dict d).insertTexts pairs else s.dict q :=
  Store.dict_setDict hd _ q

theorem dict_withRemainder (hd : d.index < s.dicts.size) (name : String) (content : Dict)
    (q : DictRef) :
    (withRemainder s d name content).dict q =
      if q = d then (s.dict d).insertText name (.dict ⟨s.dicts.size⟩)
      else if q.index = s.dicts.size then content else s.dict q := by
  have hadded : ∀ q : DictRef, (s.addDict content).2.dict q =
      if q.index = s.dicts.size then content else s.dict q := fun q => by
    show (s.dicts.push content).getD q.index .empty = _
    rw [Store.getD_push]
    rfl
  have hd' : d.index < (s.addDict content).2.dicts.size := by
    show d.index < (s.dicts.push content).size
    rw [Array.size_push]
    omega
  unfold withRemainder
  rw [dict_putTexts hd', hadded q, hadded d, if_neg (Nat.ne_of_lt hd)]
  rfl

theorem binding_withRemainder (hvars : (s.scope r).vars = .dict d) (hd : d.index < s.dicts.size)
    (name other : String) (content : Dict) :
    (withRemainder s d name content).binding r other =
      if other = name then some (.dict ⟨s.dicts.size⟩) else s.binding r other := by
  have hvars' : ((withRemainder s d name content).scope r).vars = .dict d := hvars
  unfold Store.binding
  rw [Store.BindsOnly.vars_of_dict hvars', Store.BindsOnly.vars_of_dict hvars,
    dict_withRemainder hd, if_pos rfl, Dict.getText?_insertText]

theorem unselected_congr (content : Dict) {keys keys' : List Key}
    (h : ∀ key, key ∈ keys ↔ key ∈ keys') :
    unselected content keys = unselected content keys' := by
  unfold unselected
  refine congrArg Dict.mk (List.filter_congr fun e _ => ?_)
  rw [List.contains_eq_mem, List.contains_eq_mem, decide_eq_decide.mpr (h e.hash)]

/-- What is left over are the entries that the dictionary had under other keys, also if the names
are bound in this very dictionary. -/
theorem remainder_eq (hd : d.index < s.dicts.size) (names : List String) :
    unselected ((s.putTexts d (properties (s.dict q) names)).dict q)
        ((names.map Key.ofText).reverse ++ []) =
      unselected (s.dict q) (names.map Key.ofText) := by
  have hkeys : ∀ key, key ∈ (names.map Key.ofText).reverse ++ [] ↔ key ∈ names.map Key.ofText := by
    intro key
    rw [List.append_nil, List.mem_reverse]
  rw [unselected_congr _ hkeys, dict_putTexts hd]
  split
  · next heq =>
    subst heq
    refine Dict.unselected_insertTexts _ fun name hname => ?_
    rw [map_fst_properties] at hname
    exact List.mem_map_of_mem hname
  · rfl

end Pattern

namespace PropertyPattern

variable {denylist : List String} {r : ScopeRef} {d q : DictRef} {s t : Store}

/-- A dictionary was parted. The names are bound to what it has under them, or else to void; the
rest is bound to a new dictionary, of the other entries in their order; and every other name is
bound as before. The dictionary itself has not changed, unless it holds the variables of the scope,
where it has got what was bound. -/
structure Parted (p : PropertyPattern denylist) (r : ScopeRef) (d q u : DictRef) (s t : Store) :
    Prop where
  scope : t.scope r = s.scope r
  name : ∀ name ∈ p.names,
    t.binding r name = some (((s.dict q).getText? name).getD .undefined)
  rest : t.binding r p.rest = some (.dict u)
  fresh : s.dicts.size ≤ u.index
  remainder : (t.dict u).entries =
    (s.dict q).entries.filter fun e => e.hash ∉ p.names.map Key.ofText
  other : ∀ name ∉ p.names ++ [p.rest], t.binding r name = s.binding r name
  unchanged : q ≠ d → t.dict q = s.dict q
  own_variables : q = d → t.dict q =
    ((s.dict q).insertTexts (properties (s.dict q) p.names)).insertText p.rest (.dict u)

/-- The store after the pattern was bound to a dictionary. -/
def partedIn (p : PropertyPattern denylist) (s : Store) (d q : DictRef) : Store :=
  Pattern.partedStore s d q p.names p.rest []

theorem partedIn_eq (p : PropertyPattern denylist) (hd : d.index < s.dicts.size) (q : DictRef) :
    p.partedIn s d q = Pattern.withRemainder (s.putTexts d (properties (s.dict q) p.names)) d p.rest
      (Pattern.unselected (s.dict q) (p.names.map Key.ofText)) := by
  unfold partedIn Pattern.partedStore
  dsimp only
  rw [Pattern.remainder_eq hd]

theorem parted_partedIn (p : PropertyPattern denylist) (hvars : (s.scope r).vars = .dict d)
    (hd : d.index < s.dicts.size) (hq : q.index < s.dicts.size) :
    p.Parted r d q ⟨s.dicts.size⟩ s (p.partedIn s d q) := by
  obtain ⟨hnames, -, hdisjoint⟩ := List.nodup_append.mp p.nodup
  rw [p.partedIn_eq hd q]
  generalize hpairs : properties (s.dict q) p.names = pairs
  have hfst : pairs.map Prod.fst = p.names := by
    rw [← hpairs]
    exact map_fst_properties _ _
  have hvars' : ((s.putTexts d pairs).scope r).vars = .dict d := hvars
  have hsize : (s.putTexts d pairs).dicts.size = s.dicts.size := s.size_putTexts d pairs
  have hd' : d.index < (s.putTexts d pairs).dicts.size := hsize.symm ▸ hd
  have hbinding : ∀ other, (Pattern.withRemainder (s.putTexts d pairs) d p.rest
      (Pattern.unselected (s.dict q) (p.names.map Key.ofText))).binding r other =
        if other = p.rest then some (.dict ⟨s.dicts.size⟩)
        else ((s.dict d).insertTexts pairs).getText? other := by
    intro other
    rw [Pattern.binding_withRemainder hvars' hd', hsize, Store.binding_putTexts hvars hd]
  have hdict := Pattern.dict_withRemainder hd' p.rest
    (Pattern.unselected (s.dict q) (p.names.map Key.ofText))
  rw [hsize] at hdict
  refine ⟨rfl, fun name hname => ?_, ?_, Nat.le_refl _, ?_, fun name hname => ?_, fun hne => ?_,
    fun heq => ?_⟩
  · have hne : name ≠ p.rest := hdisjoint name hname p.rest List.mem_cons_self
    have hmem : (name, ((s.dict q).getText? name).getD .undefined) ∈ pairs := by
      rw [← hpairs]
      exact List.mem_map.mpr ⟨name, hname, rfl⟩
    rw [hbinding, if_neg hne]
    exact Dict.getText?_insertTexts _ (hfst ▸ hnames) hmem
  · rw [hbinding, if_pos rfl]
  · have hne : (⟨s.dicts.size⟩ : DictRef) ≠ d := fun heq => Nat.lt_irrefl _ (heq ▸ hd)
    rw [hdict, if_neg hne, if_pos rfl]
    refine List.filter_congr fun e _ => ?_
    rw [List.contains_eq_mem, decide_not]
  · rw [List.mem_append, not_or, List.mem_singleton] at hname
    rw [hbinding, if_neg hname.2]
    unfold Store.binding
    rw [Store.BindsOnly.vars_of_dict hvars]
    exact Dict.getText?_insertTexts_of_not_mem _ (hfst ▸ hname.1)
  · rw [hdict, if_neg hne, if_neg (Nat.ne_of_lt hq), Pattern.dict_putTexts hd, if_neg hne]
  · subst heq
    rw [hdict, if_pos rfl, Pattern.dict_putTexts hd, if_pos rfl, hpairs]

theorem bindObject_partedIn (p : PropertyPattern denylist) (m : Machine) {items : List Expr}
    (hitems : Spelled p.names (some p.rest) items) (mark : Mark) (hdenylist : s.denylist = denylist)
    (hvars : (s.scope r).vars = .dict d) (hd : d.index < s.dicts.size) (q : DictRef) :
    Pattern.bindObject m (.scope r) (contentOf (.group .object items mark)) (.dict q) s =
      .done () (p.partedIn s d q) := by
  subst hdenylist
  have hfold := Pattern.foldItems_properties (m := m) (q := q) hitems hvars hd p.bare p.not_reserved
    (List.nodup_append.mp p.nodup).1 []
  unfold Pattern.bindObject
  rw [m.foldElements_group]
  exact bind_of_done hfold

end PropertyPattern

/-! ## Putting the dictionary together again -/

/-- The nodes of an object literal of names with their values and a spread of the rest, at any
places of a source. -/
inductive Respelled : List String → String → List Expr → Prop where
  | rest (name : String) (mark : Mark) : Respelled [] name [.leaf .rest name mark]
  | name (name : String) (mark place : Mark) {names : List String} {rest : String}
    {items : List Expr} (h : Respelled names rest items) :
    Respelled (name :: names) rest
      (.leaf .key name mark :: .leaf .identifier name place :: items)

/-- The literal gives what its names are bound to and then the entries of the dictionary that its
rest is bound to. -/
theorem Machine.entriesInto_respelled {names : List String} {rest : String} {items : List Expr}
    {r : ScopeRef} {d u : DictRef} {t : Store} (h : Respelled names rest items) (k : Nat)
    (hvars : (t.scope r).vars = .dict d)
    (hbare : ∀ name ∈ names ++ [rest], BareName t.denylist name)
    {value : String → Value} (hnames : ∀ name ∈ names, t.binding r name = some (value name))
    (hrest : t.binding r rest = some (.dict u)) (start : Dict) :
    (machine (k + 1)).entriesInto (.scope r) start (items.map .node) t =
      .done ((start.insertTexts (names.map fun name => (name, value name))).update (t.dict u)) t := by
  induction h generalizing start with
  | rest name mark =>
    have hlookup := (machine (k + 1)).lookup_bound hvars (hbare name List.mem_cons_self) hrest
    rw [List.map_cons, Machine.entriesInto_spread, bind_of_done hlookup]
    rfl
  | @name name mark place names rest items h ih =>
    have hlookup := (machine k).lookup_bound hvars (hbare name List.mem_cons_self)
      (hnames name List.mem_cons_self)
    have heval : (machine (k + 1)).eval (.scope r) (.node (.leaf .identifier name place)) t =
        .done (value name) t := hlookup
    have hothers := ih (fun other hother => hbare other (List.mem_cons_of_mem _ hother))
      (fun other hother => hnames other (List.mem_cons_of_mem _ hother)) hrest
      (start.insertText name (value name))
    rw [List.map_cons, List.map_cons, Machine.entriesInto_key]
    exact (bind_of_done heval).trans hothers

/-- A dictionary with void under those of some names that it lacks. -/
def completed? (content : Dict) (names : List String) (hash : Key) : Option Value :=
  (content.get? hash).or (if hash ∈ names.map Key.ofText then some .undefined else none)

/-- The properties of some names and all other entries are the whole dictionary. -/
theorem get?_properties_update {content : Dict} (hdistinct : content.Distinct) {names : List String}
    (hnodup : names.Nodup) (hash : Key) :
    ((Dict.empty.insertTexts (properties content names)).update
        (Pattern.unselected content (names.map Key.ofText))).get? hash =
      completed? content names hash := by
  rw [Dict.get?_update _ (hdistinct.unselected _), Dict.get?_unselected]
  unfold completed?
  by_cases hmem : hash ∈ names.map Key.ofText
  · obtain ⟨name, hname, rfl⟩ := List.mem_map.mp hmem
    have hentry : (name, (content.getText? name).getD .undefined) ∈ properties content names :=
      List.mem_map.mpr ⟨name, hname, rfl⟩
    have hget : (Dict.empty.insertTexts (properties content names)).get? (Key.ofText name) =
        some ((content.getText? name).getD .undefined) :=
      Dict.getText?_insertTexts _ ((map_fst_properties content names).symm ▸ hnodup) hentry
    rw [if_pos hmem, if_pos hmem, hget]
    unfold Dict.getText?
    cases content.get? (Key.ofText name) <;> rfl
  · have hget : (Dict.empty.insertTexts (properties content names)).get? hash = none := by
      refine Dict.get?_insertTexts_of_not_mem .empty ?_
      unfold properties
      rw [List.map_map]
      exact hmem
    rw [if_neg hmem, if_neg hmem, hget]

theorem distinct_insertTexts {start : Dict} (h : start.Distinct) (pairs : List (String × Value)) :
    (start.insertTexts pairs).Distinct := by
  induction pairs generalizing start with
  | nil => exact h
  | cons pair pairs ih => exact ih (h.insert _ _ _)

/-- In a scope in which a dictionary was parted, the literal gives a dictionary with the same
entries, and with void under the names that were missing. -/
theorem PropertyPattern.Parted.entries {denylist : List String} {p : PropertyPattern denylist}
    {r : ScopeRef} {d q u : DictRef} {s t : Store} (h : p.Parted r d q u s t) {items : List Expr}
    (hitems : Respelled p.names p.rest items) (hdenylist : t.denylist = denylist)
    (hvars : (s.scope r).vars = .dict d) (hdistinct : (s.dict q).Distinct) (k : Nat) :
    ∃ e, (machine (k + 1)).entries (.scope r) (items.map .node) t = .done e t ∧ e.Distinct ∧
      ∀ hash, e.get? hash = completed? (s.dict q) p.names hash := by
  have hvars' : (t.scope r).vars = .dict d := by
    rw [h.scope]
    exact hvars
  have hbare : ∀ name ∈ p.names ++ [p.rest], BareName t.denylist name := by
    rw [hdenylist]
    exact p.bare
  have hentries := Machine.entriesInto_respelled hitems k hvars' hbare h.name h.rest .empty
  have hremainder : t.dict u = Pattern.unselected (s.dict q) (p.names.map Key.ofText) := by
    refine congrArg Dict.mk (h.remainder.trans (List.filter_congr fun e _ => ?_))
    rw [List.contains_eq_mem, decide_not]
  refine ⟨_, hentries, (distinct_insertTexts Dict.distinct_empty _).update _, fun hash => ?_⟩
  rw [hremainder]
  exact get?_properties_update hdistinct (List.nodup_append.mp p.nodup).1 hash

/-- Object patterns part a dictionary. In a scope whose variables are a dictionary, a pattern of
names with a rest can be bound to any dictionary: the names are bound to what it has under them, or
to void, and the rest to a new dictionary of exactly the entries under other keys, in their order.
The dictionary keeps its entries, unless it holds the variables of that very scope. An object
literal of the names with their values and a spread of the rest then gives the dictionary again,
with void under the names that it lacked. -/
theorem partition_spec {denylist : List String} (p : PropertyPattern denylist) (m : Machine)
    {r : ScopeRef} {d q : DictRef} {s : Store} {items again : List Expr} (mark : Mark)
    (hdenylist : s.denylist = denylist) (hvars : (s.scope r).vars = .dict d)
    (hd : d.index < s.dicts.size) (hq : q.index < s.dicts.size) (hdistinct : (s.dict q).Distinct)
    (hitems : Spelled p.names (some p.rest) items) (hagain : Respelled p.names p.rest again) :
    ∃ u t,
      Pattern.bindObject m (.scope r) (contentOf (.group .object items mark)) (.dict q) s =
        .done () t ∧
      p.Parted r d q u s t ∧
      ∀ k, ∃ e, (machine (k + 1)).entries (.scope r) (again.map .node) t = .done e t ∧
        e.Distinct ∧ ∀ hash, e.get? hash = completed? (s.dict q) p.names hash := by
  have hparted := p.parted_partedIn hvars hd hq
  have hdenylist' : (p.partedIn s d q).denylist = denylist := hdenylist
  exact ⟨⟨s.dicts.size⟩, p.partedIn s d q,
    p.bindObject_partedIn m hitems mark hdenylist hvars hd q, hparted,
    hparted.entries hagain hdenylist' hvars hdistinct⟩

/-! ## A dictionary with a missing name -/

theorem bare_parting : ∀ name ∈ ["a", "c", "rest"], BareName [] name := by
  intro name hname
  simp only [List.mem_cons, List.not_mem_nil, or_false] at hname
  rcases hname with rfl | rfl | rfl <;> exact ⟨by decide, List.not_mem_nil⟩

/-- Two names and a rest. -/
def partingPattern : PropertyPattern [] := ⟨["a", "c"], "rest", bare_parting, by decide, by decide⟩

/-- The nodes of the pattern. -/
def partingItems : List Expr :=
  [.leaf .identifier "a" default, .leaf .identifier "c" default, .leaf .rest "rest" default]

/-- The nodes of the literal that puts a dictionary together again. -/
def rejoiningItems : List Expr :=
  [.leaf .key "a" default, .leaf .identifier "a" default, .leaf .key "c" default,
    .leaf .identifier "c" default, .leaf .rest "rest" default]

/-- A scope with its variables, and a dictionary with a name and a number for keys. -/
def partingStore (vars : Value) : Store :=
  { Store.empty [] with
    dicts := #[.empty, (Dict.ofTexts [("a", .int 1)]).insert [.int 5] (.int 5) (.int 2)]
    scopes := #[⟨vars, .set 0 [], .nil⟩] }

theorem partition_spec_missing :
    (partingStore (.dict ⟨0⟩)).denylist = [] ∧
      ((partingStore (.dict ⟨0⟩)).scope ⟨0⟩).vars = .dict ⟨0⟩ ∧
      0 < (partingStore (.dict ⟨0⟩)).dicts.size ∧ 1 < (partingStore (.dict ⟨0⟩)).dicts.size ∧
      ((partingStore (.dict ⟨0⟩)).dict ⟨1⟩).Distinct ∧
      Spelled partingPattern.names (some partingPattern.rest) partingItems ∧
      Respelled partingPattern.names partingPattern.rest rejoiningItems ∧
      ∃ u t,
        Pattern.bindObject (machine 0) (.scope ⟨0⟩)
            (contentOf (.group .object partingItems default)) (.dict ⟨1⟩)
            (partingStore (.dict ⟨0⟩)) = .done () t ∧
          partingPattern.Parted ⟨0⟩ ⟨0⟩ ⟨1⟩ u (partingStore (.dict ⟨0⟩)) t ∧
          ∀ k, ∃ e, (machine (k + 1)).entries (.scope ⟨0⟩) (rejoiningItems.map .node) t =
              .done e t ∧ e.Distinct ∧
            ∀ hash, e.get? hash =
              completed? ((partingStore (.dict ⟨0⟩)).dict ⟨1⟩) partingPattern.names hash := by
  have hd : (0 : Nat) < (partingStore (.dict ⟨0⟩)).dicts.size := by decide
  have hq : (1 : Nat) < (partingStore (.dict ⟨0⟩)).dicts.size := by decide
  have hdistinct : ((partingStore (.dict ⟨0⟩)).dict ⟨1⟩).Distinct := by
    show [Key.ofText "a", [.int 5]].Nodup
    decide
  have hitems : Spelled partingPattern.names (some partingPattern.rest) partingItems :=
    .name "a" default (.name "c" default (.rest "rest" default))
  have hagain : Respelled partingPattern.names partingPattern.rest rejoiningItems :=
    .name "a" default default (.name "c" default default (.rest "rest" default))
  exact ⟨rfl, rfl, hd, hq, hdistinct, hitems, hagain,
    partition_spec partingPattern (machine 0) (r := ⟨0⟩) (d := ⟨0⟩) (q := ⟨1⟩) default rfl rfl hd hq
      hdistinct hitems hagain⟩

/-- A dictionary that holds the variables of the scope changes when it is parted there, and nothing
can be bound in a scope whose variables are no dictionary. -/
theorem partition_of_variables :
    (∃ t, Pattern.bindObject (machine 0) (.scope ⟨0⟩)
          (contentOf (.group .object partingItems default)) (.dict ⟨0⟩)
          (partingStore (.dict ⟨0⟩)) = .done () t ∧
      ((partingStore (.dict ⟨0⟩)).dict ⟨0⟩).getText? "rest" = none ∧
      (t.dict ⟨0⟩).getText? "rest" = some (.dict ⟨2⟩)) ∧
    ∃ e t, Pattern.bindObject (machine 0) (.scope ⟨0⟩)
        (contentOf (.group .object partingItems default)) (.dict ⟨1⟩)
        (partingStore (.list ⟨0⟩)) = .failed e t :=
  ⟨⟨_, rfl, rfl, rfl⟩, ⟨_, _, rfl⟩⟩

end Lisplet
