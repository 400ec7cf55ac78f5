import Lisplet.Evaluation.Eval
import Lisplet.Proofs.Scope.Rebinding

/-!
# Array patterns

A pattern of bare names binds each of them to the element at its position, and a rest to a new list
of what is left over. The same pattern as an array literal puts the elements together again: those
that were missing are void, and those that no name took are lost. So a closure that has one and the
same pattern as its parameters and as its body gives back the arguments that are spread into its
call.

Main statement: `destructuring_spec`.
-/

namespace Lisplet

open Lisplet.Action

/-! ## Several names -/

namespace Store

variable {s : Store} {d : DictRef}

/-- Puts values under names in a dictionary, one after the other. -/
def putTexts (s : Store) (d : DictRef) (pairs : List (String × Value)) : Store :=
  s.setDict d ((s.dict d).insertTexts pairs)

theorem size_putTexts (s : Store) (d : DictRef) (pairs : List (String × Value)) :
    (s.putTexts d pairs).dicts.size = s.dicts.size :=
  s.size_setDict d _

theorem putTexts_nil (s : Store) (d : DictRef) : s.putTexts d [] = s := setDict_self s d

theorem putTexts_cons (hd : d.index < s.dicts.size) (name : String) (value : Value)
    (pairs : List (String × Value)) :
    (s.setDict d ((s.dict d).insertText name value)).putTexts d pairs =
      s.putTexts d ((name, value) :: pairs) := by
  unfold putTexts
  rw [setDict_setDict, dict_setDict hd, if_pos rfl]
  rfl

theorem binding_putTexts {r : ScopeRef} (hvars : (s.scope r).vars = .dict d)
    (hd : d.index < s.dicts.size) (pairs : List (String × Value)) (name : String) :
    (s.putTexts d pairs).binding r name = ((s.dict d).insertTexts pairs).getText? name := by
  have hvars' : ((s.putTexts d pairs).scope r).vars = .dict d := hvars
  unfold binding
  rw [BindsOnly.vars_of_dict hvars']
  unfold putTexts
  rw [dict_setDict hd, if_pos rfl]

theorem get?_of_binding {r : ScopeRef} {name : String} {value : Value}
    (hvars : (s.scope r).vars = .dict d) (hvalue : s.binding r name = some value) :
    (s.dict d).get? (Key.ofText name) = some value := by
  rw [← BindsOnly.vars_of_dict hvars]
  exact hvalue

end Store

/-! ## Patterns of names -/

/-- An array pattern of bare names, all of them different: names for single elements, and perhaps
one for the rest. -/
structure NamePattern (denylist : List String) where
  names : List String
  rest : Option String
  bare : ∀ name ∈ names ++ rest.toList, BareName denylist name
  nodup : (names ++ rest.toList).Nodup

/-- The nodes in which names and a rest are written, at any places of a source. -/
inductive Spelled : List String → Option String → List Expr → Prop where
  | nothing : Spelled [] none []
  | rest (name : String) (mark : Mark) : Spelled [] (some name) [.leaf .rest name mark]
  | name (name : String) (mark : Mark) {names : List String} {rest : Option String}
    {items : List Expr} (h : Spelled names rest items) :
    Spelled (name :: names) rest (.leaf .identifier name mark :: items)

/-- What is bound to names for the elements from a position on. -/
def positional (xs : List Value) (i : Nat) (names : List String) : List (String × Value) :=
  (names.zipIdx i).map fun x => (x.1, xs[x.2]?.getD .undefined)

theorem positional_cons (xs : List Value) (i : Nat) (name : String) (names : List String) :
    positional xs i (name :: names) =
      (name, xs[i]?.getD .undefined) :: positional xs (i + 1) names := rfl

theorem map_fst_positional (xs : List Value) (i : Nat) (names : List String) :
    (positional xs i names).map Prod.fst = names := by
  induction names generalizing i with
  | nil => rfl
  | cons name names ih => rw [positional_cons, List.map_cons, ih]

namespace Pattern

variable {m : Machine} {r : ScopeRef} {d : DictRef} {s : Store} {xs : List Value}

/-! ## Binding -/

/-- A bare name is bound in a scope whose variables are a dictionary. -/
theorem assign_bare (m : Machine) {name : String} (value : Value)
    (hvars : (s.scope r).vars = .dict d) (hname : BareName s.denylist name) :
    m.assign (.scope r) (.str name) value s =
      .done value (s.setDict d ((s.dict d).insertText name value)) :=
  History.set_bare hname hvars

theorem bindPosition_identifier {source : Source} {name : String} (mark : Mark) (i : Nat)
    (hvars : (s.scope r).vars = .dict d) (hname : BareName s.denylist name)
    (hsource : source.elements s = .done xs s) :
    bindPosition m (.scope r) source (.node (.leaf .identifier name mark)) i s =
      .done (.yield (i + 1))
        (s.setDict d ((s.dict d).insertText name (xs[i]?.getD .undefined))) := by
  have hassign := assign_bare m (xs[i]?.getD .undefined) hvars hname
  exact (bind_of_done hsource).trans (bind_of_done hassign)

/-- The store after the rest of a source was bound: the rest is a new list. -/
def withRest (s : Store) (d : DictRef) (name : String) (items : List Value) : Store :=
  (s.addList items.toArray).2.putTexts d [(name, .list (s.addList items.toArray).1)]

theorem bindPosition_rest {source : Source} {name : String} (mark : Mark) (i : Nat)
    (hvars : (s.scope r).vars = .dict d) (hname : BareName s.denylist name)
    (hsource : source.elements s = .done xs s) :
    bindPosition m (.scope r) source (.node (.leaf .rest name mark)) i s =
      .done (.done (i + 1)) (withRest s d name (xs.drop i)) := by
  have hvars' : ((s.addList (xs.drop i).toArray).2.scope r).vars = .dict d := hvars
  have hassign := assign_bare m (.list (s.addList (xs.drop i).toArray).1) hvars' hname
  exact (bind_of_done hsource).trans (bind_of_done hassign)

/-- The store after names and a rest were bound to the elements of a source from a position on. -/
def boundStore (s : Store) (d : DictRef) (xs : List Value) (i : Nat) (names : List String) :
    Option String → Store
  | none => s.putTexts d (positional xs i names)
  | some name =>
    withRest (s.putTexts d (positional xs i names)) d name (xs.drop (i + names.length))

theorem boundStore_cons (hd : d.index < s.dicts.size) (i : Nat) (name : String)
    (names : List String) (rest : Option String) :
    boundStore (s.setDict d ((s.dict d).insertText name (xs[i]?.getD .undefined))) d xs (i + 1)
      names rest = boundStore s d xs i (name :: names) rest := by
  have hput : (s.setDict d ((s.dict d).insertText name (xs[i]?.getD .undefined))).putTexts d
      (positional xs (i + 1) names) = s.putTexts d (positional xs i (name :: names)) :=
    Store.putTexts_cons hd _ _ _
  cases rest with
  | none => exact hput
  | some rest =>
    have hlength : i + (name :: names).length = i + 1 + names.length := by
      rw [List.length_cons]
      omega
    unfold boundStore
    rw [hput, hlength]

/-- Binding names changes no list. -/
theorem Source.elements_setDict {source : Source} (hsource : source.elements s = .done xs s)
    (d : DictRef) (content : Dict) :
    source.elements (s.setDict d content) = .done xs (s.setDict d content) := by
  cases source with
  | list l =>
    have hxs : (s.list l).toList = xs := (Outcome.done.inj hsource).1
    exact congrArg (Outcome.done · (s.setDict d content)) hxs
  | fixed items =>
    have hxs : items = xs := (Outcome.done.inj hsource).1
    exact congrArg (Outcome.done · (s.setDict d content)) hxs

/-- The names are bound one after the other, and the rest after them. -/
theorem foldItems_spelled {source : Source} {names : List String} {rest : Option String}
    {items : List Expr} (h : Spelled names rest items) (hvars : (s.scope r).vars = .dict d)
    (hd : d.index < s.dicts.size)
    (hbare : ∀ name ∈ names ++ rest.toList, BareName s.denylist name)
    (hsource : source.elements s = .done xs s) (i : Nat) :
    ∃ j, foldItems (bindPosition m (.scope r) source) (items.map .node) i s =
      .done j (boundStore s d xs i names rest) := by
  induction h generalizing s i with
  | nothing =>
    refine ⟨i, ?_⟩
    show Outcome.done i s = .done i (s.putTexts d [])
    rw [Store.putTexts_nil]
  | rest name mark =>
    refine ⟨i + 1, ?_⟩
    have hstep := bindPosition_rest (m := m) mark i hvars (hbare name List.mem_cons_self) hsource
    refine (bind_of_done hstep).trans ?_
    show Outcome.done (i + 1) _ = .done (i + 1) (withRest (s.putTexts d []) d name (xs.drop i))
    rw [Store.putTexts_nil]
  | @name name mark names rest items h ih =>
    have hstep := bindPosition_identifier (m := m) mark i hvars (hbare name List.mem_cons_self)
      hsource
    have hvars' : ((s.setDict d
        ((s.dict d).insertText name (xs[i]?.getD .undefined))).scope r).vars = .dict d := hvars
    have hd' : d.index < (s.setDict d
        ((s.dict d).insertText name (xs[i]?.getD .undefined))).dicts.size := by
      rw [Store.size_setDict]
      exact hd
    have hbare' : ∀ other ∈ names ++ rest.toList, BareName s.denylist other :=
      fun other hother => hbare other (List.mem_cons_of_mem _ hother)
    obtain ⟨j, hj⟩ := ih hvars' hd' hbare' (Source.elements_setDict hsource d _) (i + 1)
    refine ⟨j, (bind_of_done hstep).trans ?_⟩
    rw [← boundStore_cons hd]
    exact hj

/-! ## What is bound afterwards -/

theorem binding_positional (hvars : (s.scope r).vars = .dict d) (hd : d.index < s.dicts.size)
    (xs : List Value) {names : List String} (hnodup : names.Nodup) (i : Nat) (name : String)
    (hi : names[i]? = some name) :
    (s.putTexts d (positional xs 0 names)).binding r name = some (xs[i]?.getD .undefined) := by
  have hmem : (name, xs[i]?.getD .undefined) ∈ positional xs 0 names :=
    List.mem_map.mpr ⟨(name, i), List.mk_mem_zipIdx_iff_getElem?.mpr hi, rfl⟩
  rw [Store.binding_putTexts hvars hd]
  refine Dict.getText?_insertTexts _ ?_ hmem
  rw [map_fst_positional]
  exact hnodup

theorem binding_positional_other (hvars : (s.scope r).vars = .dict d) (hd : d.index < s.dicts.size)
    (xs : List Value) {names : List String} (name : String) (hname : name ∉ names) :
    (s.putTexts d (positional xs 0 names)).binding r name = s.binding r name := by
  rw [Store.binding_putTexts hvars hd]
  unfold Store.binding
  rw [Store.BindsOnly.vars_of_dict hvars]
  refine Dict.getText?_insertTexts_of_not_mem _ ?_
  rw [map_fst_positional]
  exact hname

theorem binding_withRest (hvars : (s.scope r).vars = .dict d) (hd : d.index < s.dicts.size)
    (name other : String) (items : List Value) :
    (withRest s d name items).binding r other =
      if other = name then some (.list (s.addList items.toArray).1) else s.binding r other := by
  have hvars' : ((s.addList items.toArray).2.scope r).vars = .dict d := hvars
  unfold withRest
  rw [Store.binding_putTexts hvars' hd]
  show ((s.dict d).insertText name (.list (s.addList items.toArray).1)).getText? other = _
  rw [Dict.getText?_insertText]
  unfold Store.binding
  rw [Store.BindsOnly.vars_of_dict hvars]

theorem list_withRest (s : Store) (d : DictRef) (name : String) (items : List Value) :
    (withRest s d name items).list (s.addList items.toArray).1 = items.toArray := by
  show (s.lists.push items.toArray).getD s.lists.size #[] = _
  rw [Store.getD_push, if_pos rfl]

/-- Binding the rest changes no other name. -/
theorem binding_boundStore (hvars : (s.scope r).vars = .dict d) (hd : d.index < s.dicts.size)
    (xs : List Value) (names : List String) {rest : Option String} {name : String}
    (hname : name ∉ rest.toList) :
    (boundStore s d xs 0 names rest).binding r name =
      (s.putTexts d (positional xs 0 names)).binding r name := by
  cases rest with
  | none => rfl
  | some last =>
    have hvars' : ((s.putTexts d (positional xs 0 names)).scope r).vars = .dict d := hvars
    have hd' := hd
    rw [← s.size_putTexts d (positional xs 0 names)] at hd'
    have hne : name ≠ last := fun heq => hname (heq ▸ List.mem_cons_self)
    exact (binding_withRest hvars' hd' last name _).trans (if_neg hne)

/-- The rest is bound to a new list. -/
theorem binding_boundStore_rest (hvars : (s.scope r).vars = .dict d) (hd : d.index < s.dicts.size)
    (xs : List Value) (names : List String) (name : String) :
    ∃ l : ListRef, s.lists.size ≤ l.index ∧
      (boundStore s d xs 0 names (some name)).binding r name = some (.list l) ∧
      ((boundStore s d xs 0 names (some name)).list l).toList = xs.drop names.length := by
  have hvars' : ((s.putTexts d (positional xs 0 names)).scope r).vars = .dict d := hvars
  have hd' := hd
  rw [← s.size_putTexts d (positional xs 0 names)] at hd'
  refine ⟨_, Nat.le_refl _, (binding_withRest hvars' hd' name name _).trans (if_pos rfl), ?_⟩
  rw [← Nat.zero_add names.length]
  exact congrArg Array.toList (list_withRest _ d name _)

end Pattern

/-! ## Looking up a bound name -/

namespace ScopeRef

variable {r : ScopeRef} {d : DictRef} {s : Store} {name : String} {value : Value}

theorem holder?_bound (hvars : (s.scope r).vars = .dict d)
    (hvalue : s.binding r name = some value) :
    holder? (.scope r) (.str name) s = .done (some (.dict d)) s := by
  have hget := Store.get?_of_binding hvars hvalue
  have hread : (Value.scope r).varsOf s = .done (.dict d) s := congrArg (Outcome.done · s) hvars
  have hcontains : Action.contains (.dict d) (.str name) s = .done true s := by
    show Outcome.done ((s.dict d).contains (Key.ofText name)) s = _
    unfold Dict.contains
    rw [hget, Option.isSome_some]
  show holderWithin (.str name) (s.scopes.size + s.objects.size + s.functions.size + 1 + 1)
    (.scope r) s = _
  rw [holderWithin_scope, bind_of_done hread, bind_of_done hcontains]
  rfl

/-- A name that is bound in the scope itself is found there, whatever stands around the scope. -/
theorem getAt_bound (hvars : (s.scope r).vars = .dict d) (hname : name ∉ s.denylist)
    (hvalue : s.binding r name = some value) : r.getAt (.str name) [] s = .done value s := by
  have hguard := Property.guardValue_str name s
  rw [if_neg hname] at hguard
  have hholder := holder?_bound hvars hvalue
  have hdefined : r.isDefined (.str name) s = .done true s := bind_of_done hholder
  have hget := Store.get?_of_binding hvars hvalue
  have hvar : r.getVar (.str name) s = .done value s :=
    (bind_of_done hguard).trans ((bind_of_done hholder).trans (Action.subscript_dict hget))
  exact (bind_of_done hguard).trans ((bind_of_done hdefined).trans (bind_of_done hvar))

end ScopeRef

theorem Machine.lookup_bound (m : Machine) {r : ScopeRef} {d : DictRef} {s : Store} {name : String}
    {value : Value} (hvars : (s.scope r).vars = .dict d) (hname : BareName s.denylist name)
    (hvalue : s.binding r name = some value) :
    m.lookup (.scope r) (.str name) s = .done value s := by
  show r.getAt (.str (dottedName name).1) (dottedName name).2 s = _
  rw [History.dottedName_bare hname.1]
  exact r.getAt_bound hvars hname.2 hvalue

/-! ## Putting the elements together again -/

/-- Elements, with void behind them up to a number of elements. -/
def padded (count : Nat) (xs : List Value) : List Value :=
  xs ++ List.replicate (count - xs.length) .undefined

/-- The elements that a pattern gives back: so many of them, and with a rest all others. -/
def arranged (count : Nat) (hasRest : Bool) (xs : List Value) : List Value :=
  if hasRest then padded count xs else (padded count xs).take count

theorem map_snd_positional (xs : List Value) (names : List String) :
    (positional xs 0 names).map Prod.snd = (padded names.length xs).take names.length := by
  refine List.ext_getElem? fun i => ?_
  unfold positional padded
  rw [List.map_map, List.getElem?_map, List.getElem?_zipIdx, List.getElem?_take,
    List.getElem?_append, List.getElem?_replicate]
  by_cases hi : i < names.length
  · rw [if_pos hi, List.getElem?_eq_getElem hi]
    by_cases hx : i < xs.length
    · rw [if_pos hx]
      simp [hx]
    · rw [if_neg hx, if_pos (by omega)]
      simp [hx]
  · rw [if_neg hi, List.getElem?_eq_none (by omega)]
    rfl

theorem drop_padded (count : Nat) (xs : List Value) :
    (padded count xs).drop count = xs.drop count := by
  unfold padded
  rw [List.drop_append, List.drop_replicate, Nat.sub_self, List.replicate_zero, List.append_nil]

theorem arranged_eq (xs : List Value) (names : List String) (hasRest : Bool) :
    arranged names.length hasRest xs =
      (positional xs 0 names).map Prod.snd ++ if hasRest then xs.drop names.length else [] := by
  rw [map_snd_positional]
  cases hasRest with
  | false => exact (List.append_nil _).symm
  | true =>
    show padded names.length xs = _ ++ xs.drop names.length
    rw [← drop_padded, List.take_append_drop]

/-- The nodes of a pattern as an array literal give what its names are bound to, and then the
elements of the list that its rest is bound to. -/
theorem Machine.elements_spelled {names : List String} {rest : Option String} {items : List Expr}
    {r : ScopeRef} {d : DictRef} {s : Store} (h : Spelled names rest items) (k : Nat)
    (hvars : (s.scope r).vars = .dict d)
    (hbare : ∀ name ∈ names ++ rest.toList, BareName s.denylist name)
    {value : String → Value} (hnames : ∀ name ∈ names, s.binding r name = some (value name))
    {tail : List Value}
    (hrest : ∀ name ∈ rest, ∃ l, s.binding r name = some (.list l) ∧ (s.list l).toList = tail) :
    (machine (k + 1)).elements (.scope r) (items.map .node) s =
      .done (names.map value ++ if rest.isSome then tail else []) s := by
  induction h with
  | nothing => rfl
  | rest name mark =>
    obtain ⟨l, hbinding, htail⟩ := hrest name rfl
    have hlookup := (machine (k + 1)).lookup_bound hvars (hbare name List.mem_cons_self) hbinding
    have hspread : (machine (k + 1)).spread (.scope r) (.str name) s = .done tail s := by
      refine (bind_of_done hlookup).trans ?_
      exact congrArg (Outcome.done · s) htail
    have hitem : (machine (k + 1)).itemElements (.scope r) (.node (.leaf .rest name mark)) s =
        .done tail s := hspread
    refine (bind_of_done hitem).trans ?_
    show Outcome.done (tail ++ []) s = .done tail s
    rw [List.append_nil]
  | @name name mark names rest items h ih =>
    have hlookup := (machine k).lookup_bound hvars (hbare name List.mem_cons_self)
      (hnames name List.mem_cons_self)
    have hitem : (machine (k + 1)).itemElements (.scope r) (.node (.leaf .identifier name mark)) s =
        .done [value name] s := bind_of_done hlookup
    have hothers := ih (fun other hother => hbare other (List.mem_cons_of_mem _ hother))
      (fun other hother => hnames other (List.mem_cons_of_mem _ hother)) hrest
    exact (bind_of_done hitem).trans (bind_of_done hothers)

/-! ## Taking apart and putting together -/

namespace NamePattern

variable {denylist : List String} {r : ScopeRef} {d : DictRef} {s : Store} {xs : List Value}

/-- In a scope the names of a pattern are bound to the elements at their positions or else to void,
and its rest to a new list of the elements behind them; every other name is bound as before. -/
structure Bound (p : NamePattern denylist) (r : ScopeRef) (xs : List Value) (s t : Store) :
    Prop where
  scope : t.scope r = s.scope r
  name : ∀ (i : Nat) (name : String), p.names[i]? = some name →
    t.binding r name = some (xs[i]?.getD .undefined)
  rest : ∀ name ∈ p.rest, ∃ l : ListRef, s.lists.size ≤ l.index ∧
    t.binding r name = some (.list l) ∧ (t.list l).toList = xs.drop p.names.length
  other : ∀ name ∉ p.names ++ p.rest.toList, t.binding r name = s.binding r name

/-- The store after the pattern was bound to the elements of a source. -/
def boundIn (p : NamePattern denylist) (s : Store) (d : DictRef) (xs : List Value) : Store :=
  Pattern.boundStore s d xs 0 p.names p.rest

theorem scope_boundIn (p : NamePattern denylist) (s : Store) (d : DictRef) (xs : List Value)
    (q : ScopeRef) : (p.boundIn s d xs).scope q = s.scope q := by
  unfold boundIn
  cases p.rest <;> rfl

theorem denylist_boundIn (p : NamePattern denylist) (s : Store) (d : DictRef) (xs : List Value) :
    (p.boundIn s d xs).denylist = s.denylist := by
  unfold boundIn
  cases p.rest <;> rfl

theorem closures_boundIn (p : NamePattern denylist) (s : Store) (d : DictRef) (xs : List Value) :
    (p.boundIn s d xs).closures = s.closures := by
  unfold boundIn
  cases p.rest <;> rfl

theorem bound_boundIn (p : NamePattern denylist) (hvars : (s.scope r).vars = .dict d)
    (hd : d.index < s.dicts.size) (xs : List Value) : p.Bound r xs s (p.boundIn s d xs) := by
  obtain ⟨hnodup, -, hdisjoint⟩ := List.nodup_append.mp p.nodup
  refine ⟨p.scope_boundIn s d xs r, fun i name hi => ?_, fun name hname => ?_,
    fun name hname => ?_⟩
  · have hnot : name ∉ p.rest.toList := fun hmem =>
      hdisjoint name (List.mem_of_getElem? hi) name hmem rfl
    exact (Pattern.binding_boundStore hvars hd xs p.names hnot).trans
      (Pattern.binding_positional hvars hd xs hnodup i name hi)
  · have hrest : p.rest = some name := hname
    unfold boundIn
    rw [hrest]
    exact Pattern.binding_boundStore_rest hvars hd xs p.names name
  · rw [List.mem_append, not_or] at hname
    exact (Pattern.binding_boundStore hvars hd xs p.names hname.2).trans
      (Pattern.binding_positional_other hvars hd xs name hname.1)

theorem foldItems_boundIn (p : NamePattern denylist) (m : Machine) {source : Pattern.Source}
    {items : List Expr} (hitems : Spelled p.names p.rest items) (hdenylist : s.denylist = denylist)
    (hvars : (s.scope r).vars = .dict d) (hd : d.index < s.dicts.size)
    (hsource : source.elements s = .done xs s) :
    ∃ j, foldItems (Pattern.bindPosition m (.scope r) source) (items.map .node) 0 s =
      .done j (p.boundIn s d xs) := by
  subst hdenylist
  exact Pattern.foldItems_spelled hitems hvars hd p.bare hsource 0

section

variable {p : NamePattern denylist} {t : Store}

/-- The names are bound to the elements in order. -/
theorem Bound.map_binding (h : p.Bound r xs s t) :
    p.names.map (fun name => (t.binding r name).getD .undefined) =
      (positional xs 0 p.names).map Prod.snd := by
  have hfst := map_fst_positional xs 0 p.names
  rw [← hfst, List.map_map, hfst]
  refine List.map_congr_left fun pair hpair => ?_
  obtain ⟨⟨name, i⟩, hi, rfl⟩ := List.mem_map.mp hpair
  show (t.binding r name).getD .undefined = xs[i]?.getD .undefined
  rw [h.name i name (List.mk_mem_zipIdx_iff_getElem?.mp hi), Option.getD_some]

/-- In a scope in which the names are bound, the pattern as an array literal gives the elements, and
changes nothing. -/
theorem Bound.elements (h : p.Bound r xs s t) {items : List Expr}
    (hitems : Spelled p.names p.rest items) (hdenylist : t.denylist = denylist)
    (hvars : (t.scope r).vars = .dict d) (k : Nat) :
    (machine (k + 1)).elements (.scope r) (items.map .node) t =
      .done (arranged p.names.length p.rest.isSome xs) t := by
  have hbare : ∀ name ∈ p.names ++ p.rest.toList, BareName t.denylist name := by
    rw [hdenylist]
    exact p.bare
  have hnames : ∀ name ∈ p.names,
      t.binding r name = some ((t.binding r name).getD .undefined) := by
    intro name hname
    obtain ⟨i, hi⟩ := List.mem_iff_getElem?.mp hname
    rw [h.name i name hi, Option.getD_some]
  have helements := Machine.elements_spelled hitems k hvars hbare hnames
    (fun name hname => (h.rest name hname).imp fun _ hl => hl.2)
  rw [helements, h.map_binding, arranged_eq]

end

theorem elements_boundIn (p : NamePattern denylist) {items : List Expr}
    (hitems : Spelled p.names p.rest items) (hdenylist : s.denylist = denylist)
    (hvars : (s.scope r).vars = .dict d) (hd : d.index < s.dicts.size) (xs : List Value) (k : Nat) :
    (machine (k + 1)).elements (.scope r) (items.map .node) (p.boundIn s d xs) =
      .done (arranged p.names.length p.rest.isSome xs) (p.boundIn s d xs) := by
  have hdenylist' := (p.denylist_boundIn s d xs).trans hdenylist
  have hvars' : ((p.boundIn s d xs).scope r).vars = .dict d := by
    rw [scope_boundIn]
    exact hvars
  exact (p.bound_boundIn hvars hd xs).elements hitems hdenylist' hvars' k

end NamePattern

/-! ## What is taken apart -/

/-- The store after the elements of a value were taken: an iterator has none left. -/
def Store.taken (s : Store) : Value → Store
  | .iterator r => s.setIterator r []
  | _ => s

theorem Store.taken_eq (s : Store) (v : Value) :
    s.taken v = { s with iterators := (s.taken v).iterators } := by
  cases v <;> rfl

theorem Pattern.sourceOf_eq {v : Value} {s : Store} {xs : List Value} (hv : v.isIterable = true)
    (hxs : s.elements v = .ok xs) :
    ∃ source, sourceOf v s = .done source (s.taken v) ∧
      source.elements (s.taken v) = .done xs (s.taken v) := by
  by_cases hlist : ∃ l, v = .list l
  · obtain ⟨l, rfl⟩ := hlist
    cases hxs
    exact ⟨.list l, rfl, rfl⟩
  · have hcompute : Action.compute (·.elements v) s = .done xs s := by
      unfold Action.compute
      dsimp only
      rw [hxs]
    have helements : Action.elements v s = .done xs (s.taken v) := by
      refine (bind_of_done hcompute).trans ?_
      cases v <;> rfl
    refine ⟨.fixed xs, ?_, rfl⟩
    have hsource : sourceOf v = if v.isIterable then
        Action.elements v >>= fun items => pure (.fixed items)
        else Action.compute (·.shown v) >>= fun text => .raise (.notIterable text) := by
      cases v with
      | list l => exact absurd ⟨l, rfl⟩ hlist
      | _ => rfl
    rw [hsource, if_pos hv]
    exact bind_of_done helements

namespace NamePattern

variable {denylist : List String} {r : ScopeRef} {d : DictRef} {s : Store} {xs : List Value}

theorem Bound.of_taken {p : NamePattern denylist} {v : Value} {t : Store}
    (h : p.Bound r xs (s.taken v) t) : p.Bound r xs s t := by
  rw [s.taken_eq v] at h
  exact ⟨h.scope, h.name, h.rest, h.other⟩

theorem bindArray_boundIn (p : NamePattern denylist) (m : Machine) {items : List Expr}
    (hitems : Spelled p.names p.rest items) (mark : Mark) {v : Value}
    (hdenylist : (s.taken v).denylist = denylist)
    (hvars : ((s.taken v).scope r).vars = .dict d) (hd : d.index < (s.taken v).dicts.size)
    (hv : v.isIterable = true) (hxs : s.elements v = .ok xs) :
    Pattern.bindArray m (.scope r) (contentOf (.group .array items mark)) v s =
      .done () (p.boundIn (s.taken v) d xs) := by
  obtain ⟨source, hsource, helements⟩ := Pattern.sourceOf_eq hv hxs
  obtain ⟨j, hj⟩ := p.foldItems_boundIn m hitems hdenylist hvars hd helements
  refine (bind_of_done hsource).trans ?_
  rw [m.foldElements_group]
  exact bind_of_done hj

end NamePattern

/-! ## Closures -/

/-- The variables of a new scope are a dictionary of its own. -/
theorem Store.vars_addScope {vars : List (String × Value)} {outer : Value} {s t : Store}
    {r : ScopeRef} (h : s.addScope vars outer = (r, t)) :
    ∃ d : DictRef, (t.scope r).vars = .dict d ∧ d.index < t.dicts.size := by
  cases h
  refine ⟨⟨s.dicts.size⟩, ?_, ?_⟩
  · show ((s.scopes.push _).getD s.scopes.size default).vars = _
    rw [Store.getD_push, if_pos rfl]
  · show s.dicts.size < (s.dicts.push _).size
    rw [Array.size_push]
    exact Nat.lt_succ_self _

/-- A call of a closure gives what its body gives in a new scope inside the one of the closure,
after the parameters were bound there to the arguments. -/
theorem Machine.invokeClosure_of_bound {m : Machine} {caller : Value} {c : ClosureRef}
    {cell : Closure} {operands args : List Value} {params : List Expr} {mark : Mark} {r : ScopeRef}
    {j : Nat} {s t t₁ t₂ : Store} (hargs : m.elements caller operands s = .done args t)
    (hclosure : t.closure? c = some cell) (hinner : t.addScope [] cell.scope = (r, t₁))
    (hparams : cell.params = .node (.group .array params mark))
    (hbound : foldItems (Pattern.bindPosition m (.scope r) (.fixed args)) (params.map .node) 0
      t₁ = .done j t₂)
    (hclosure₂ : t₂.closure? c = some cell) :
    m.invokeClosure caller c operands s = m.block (.scope r) cell.body t₂ := by
  have hclosure₁ : t₁.closure? c = some cell := by
    cases hinner
    exact hclosure
  have hscope := (Property.member_closure hclosure).2.2
  have hmake : Action.make (·.addScope [] cell.scope) t = .done r t₁ :=
    congrArg (fun added : ScopeRef × Store => Outcome.done added.1 added.2) hinner
  have hpattern := (Property.member_closure hclosure₁).1
  have hcontent : Operand.content cell.params t₁ =
      .done (contentOf (.group .array params mark)) t₁ := by
    rw [hparams]
    rfl
  have hbind : discard (m.foldElements (contentOf (.group .array params mark)) 0
      (Pattern.bindPosition m (.scope r) (.fixed args))) t₁ = .done () t₂ := by
    rw [m.foldElements_group]
    exact bind_of_done hbound
  have hbody := (Property.member_closure hclosure₂).2.1
  exact (bind_of_done hargs).trans ((bind_of_done hscope).trans ((bind_of_done hmake).trans
    ((bind_of_done hpattern).trans ((bind_of_done hcontent).trans ((bind_of_done hbind).trans
      (bind_of_done hbody))))))

/-- A body of a single node gives the value of this node. -/
theorem Machine.block_singleton {m : Machine} {scope operand value : Value} {s t : Store} (id : Nat)
    (h : m.eval scope operand s = .done value t) :
    m.block scope (.tuple id [operand]) s = .done value t := by
  let step : Value → Value → Action (ForInStep Value) := fun operand _ =>
    m.eval scope operand >>= fun v => pure (.yield v)
  have hstep : step operand .undefined s = .done (.yield value) t := bind_of_done h
  have hfold : foldItems step [operand] .undefined s = .done value t := bind_of_done hstep
  exact hfold

/-- What a spread of a value inserts: the elements of a list or tuple, and nothing else. -/
def Store.spreadOf (s : Store) : Value → List Value
  | .list r => (s.list r).toList
  | .tuple _ items => items
  | _ => []

theorem Machine.elements_spread {m : Machine} {scope v : Value} {name : String} {s t : Store}
    (mark : Mark) (hlookup : m.lookup scope (.str name) s = .done v t)
    (hv : v.isIterable = true) :
    m.elements scope [.node (.leaf .rest name mark)] s = .done (t.spreadOf v) t := by
  have hspread : m.spread scope (.str name) s = .done (t.spreadOf v) t := by
    refine (bind_of_done hlookup).trans ?_
    cases v with
    | list _ | tuple _ _ | str _ | kind _ | bytes _ _ | set _ _ | iterator _ => rfl
    | _ => cases hv
  have hitem : m.itemElements scope (.node (.leaf .rest name mark)) s =
      .done (t.spreadOf v) t := hspread
  refine (bind_of_done hitem).trans ?_
  show Outcome.done (t.spreadOf v ++ []) t = _
  rw [List.append_nil]

namespace NamePattern

variable {denylist : List String} {s : Store}

/-- A closure whose parameters and whose body are the same pattern. -/
structure Echoes (p : NamePattern denylist) (cell : Closure) : Prop where
  params : ∃ items mark, cell.params = .node (.group .array items mark) ∧
    Spelled p.names p.rest items
  body : ∃ items mark id, cell.body = .tuple id [.node (.group .array items mark)] ∧
    Spelled p.names p.rest items

/-- It gives its arguments back in a new list. -/
theorem invokeClosure_echo (p : NamePattern denylist) {caller : Value} {c : ClosureRef}
    {cell : Closure} {operands args : List Value} {t : Store} (hecho : p.Echoes cell) (k : Nat)
    (hdenylist : t.denylist = denylist) (hclosure : t.closure? c = some cell)
    (hargs : (machine (k + 2)).elements caller operands s = .done args t) :
    ∃ l u, (machine (k + 2)).invokeClosure caller c operands s = .done (.list l) u ∧
      (u.list l).toList = arranged p.names.length p.rest.isSome args := by
  obtain ⟨params, pmark, hparams, hspelled⟩ := hecho.params
  obtain ⟨body, bmark, id, hbody, hspelled'⟩ := hecho.body
  generalize hinner : t.addScope [] cell.scope = inner
  obtain ⟨r, t₁⟩ := inner
  obtain ⟨d, hvars, hd⟩ := Store.vars_addScope hinner
  have hdenylist₁ : t₁.denylist = denylist := by
    cases hinner
    exact hdenylist
  have hclosure₂ : (p.boundIn t₁ d args).closure? c = some cell := by
    unfold Store.closure?
    rw [closures_boundIn]
    cases hinner
    exact hclosure
  have hsource : (Pattern.Source.fixed args).elements t₁ = .done args t₁ := rfl
  obtain ⟨j, hj⟩ := p.foldItems_boundIn (machine (k + 2)) hspelled hdenylist₁ hvars hd hsource
  rw [Machine.invokeClosure_of_bound hargs hclosure hinner hparams hj hclosure₂, hbody]
  -- the body is evaluated where the parameters were bound
  have helements := p.elements_boundIn hspelled' hdenylist₁ hvars hd args k
  generalize p.boundIn t₁ d args = t₂ at helements
  generalize arranged p.names.length p.rest.isSome args = result at helements
  have heval : (machine (k + 2)).eval (.scope r) (.node (.group .array body bmark)) t₂ =
      .done (.list (t₂.addList result.toArray).1) (t₂.addList result.toArray).2 :=
    bind_of_done helements
  refine ⟨_, _, Machine.block_singleton id heval, ?_⟩
  show ((t₂.lists.push result.toArray).getD t₂.lists.size #[]).toList = _
  rw [Store.getD_push, if_pos rfl]

end NamePattern

/-- Taking apart and putting together. In a scope whose variables are a dictionary, a pattern of
names can be bound to any value that has elements: the names are bound to the elements at their
positions, or to void, the rest to a new list of the others, and nothing else changes in the scope.
The same pattern as an array literal then gives the elements, with void up to the number of names,
and without a rest no more of them than there are names. A closure whose parameters and whose body
are the pattern gives a list of the same when it is invoked with a spread of a list or tuple; a
spread of anything else that has elements passes no arguments. -/
theorem destructuring_spec {denylist : List String} (p : NamePattern denylist) :
    (∀ (m : Machine) (r : ScopeRef) (d : DictRef) (s : Store) (v : Value) (xs : List Value)
        (items again : List Expr) (mark : Mark),
      s.denylist = denylist → (s.scope r).vars = .dict d → d.index < s.dicts.size →
      v.isIterable = true → s.elements v = .ok xs →
      Spelled p.names p.rest items → Spelled p.names p.rest again →
      ∃ t, Pattern.bindArray m (.scope r) (contentOf (.group .array items mark)) v s = .done () t ∧
        p.Bound r xs s t ∧
        ∀ k, (machine (k + 1)).elements (.scope r) (again.map .node) t =
          .done (arranged p.names.length p.rest.isSome xs) t) ∧
    ∀ (k : Nat) (caller v : Value) (name : String) (mark : Mark) (c : ClosureRef) (cell : Closure)
        (s t : Store),
      t.denylist = denylist → t.closure? c = some cell → p.Echoes cell →
      (machine (k + 2)).lookup caller (.str name) s = .done v t → v.isIterable = true →
      ∃ l u, invoke (k + 3) caller (.closure c) [.node (.leaf .rest name mark)] s =
          .done (.list l) u ∧
        (u.list l).toList = arranged p.names.length p.rest.isSome (t.spreadOf v) := by
  constructor
  · intro m r d s v xs items again mark hdenylist hvars hd hv hxs hitems hagain
    obtain ⟨hdenylist', hvars', hd'⟩ : (s.taken v).denylist = denylist ∧
        ((s.taken v).scope r).vars = .dict d ∧ d.index < (s.taken v).dicts.size := by
      rw [s.taken_eq v]
      exact ⟨hdenylist, hvars, hd⟩
    exact ⟨p.boundIn (s.taken v) d xs,
      p.bindArray_boundIn m hitems mark hdenylist' hvars' hd' hv hxs,
      (p.bound_boundIn hvars' hd' xs).of_taken,
      p.elements_boundIn hagain hdenylist' hvars' hd' xs⟩
  · intro k caller v name mark c cell s t hdenylist hclosure hecho hlookup hv
    exact p.invokeClosure_echo hecho k hdenylist hclosure (Machine.elements_spread mark hlookup hv)

/-! ## A pattern with a rest -/

theorem bare_sample : ∀ name ∈ ["a", "b", "rest"], BareName [] name := by
  intro name hname
  simp only [List.mem_cons, List.not_mem_nil, or_false] at hname
  rcases hname with rfl | rfl | rfl <;> exact ⟨by decide, List.not_mem_nil⟩

/-- Two names and a rest. -/
def samplePattern : NamePattern [] := ⟨["a", "b"], some "rest", bare_sample, by decide⟩

/-- The nodes of the pattern. -/
def sampleItems : List Expr :=
  [.leaf .identifier "a" default, .leaf .identifier "b" default, .leaf .rest "rest" default]

theorem spelled_sample : Spelled samplePattern.names samplePattern.rest sampleItems :=
  .name "a" default (.name "b" default (.rest "rest" default))

/-- A closure whose parameters and whose body are the pattern. -/
def sampleClosure : Closure where
  params := .node (.group .array sampleItems default)
  body := .tuple 1 [.node (.group .array sampleItems default)]
  scope := .nil

theorem echoes_sample : samplePattern.Echoes sampleClosure :=
  ⟨⟨sampleItems, default, rfl, spelled_sample⟩, ⟨sampleItems, default, 1, rfl, spelled_sample⟩⟩

/-- A scope with its variables, a dictionary that has a value under one name, and the closure. -/
def sampleStore (vars value : Value) : Store :=
  { Store.empty [] with
    dicts := #[.ofTexts [("xs", value)]]
    scopes := #[⟨vars, .set 0 [.str "xs"], .nil⟩]
    closures := #[sampleClosure] }

/-- An element is missing. -/
theorem destructuring_spec_missing :
    (∃ t, Pattern.bindArray (machine 0) (.scope ⟨0⟩) (contentOf (.group .array sampleItems default))
        (.tuple 2 [.int 7]) (sampleStore (.dict ⟨0⟩) (.tuple 2 [.int 7])) = .done () t ∧
      t.binding ⟨0⟩ "a" = some (.int 7) ∧ t.binding ⟨0⟩ "b" = some .undefined ∧
      (machine 1).elements (.scope ⟨0⟩) (sampleItems.map .node) t =
        .done [.int 7, .undefined] t) ∧
    ∃ l u, invoke 3 (.scope ⟨0⟩) (.closure ⟨0⟩) [.node (.leaf .rest "xs" default)]
        (sampleStore (.dict ⟨0⟩) (.tuple 2 [.int 7])) = .done (.list l) u ∧
      (u.list l).toList = [.int 7, .undefined] := by
  have hd : (0 : Nat) < (sampleStore (.dict ⟨0⟩) (.tuple 2 [.int 7])).dicts.size := Nat.one_pos
  obtain ⟨hbind, hinvoke⟩ := destructuring_spec samplePattern
  obtain ⟨t, hdone, hbound, helements⟩ := hbind (machine 0) ⟨0⟩ ⟨0⟩ _ (.tuple 2 [.int 7]) [.int 7]
    sampleItems sampleItems default rfl rfl hd rfl rfl spelled_sample spelled_sample
  exact ⟨⟨t, hdone, hbound.name 0 "a" rfl, hbound.name 1 "b" rfl, helements 0⟩,
    hinvoke 0 (.scope ⟨0⟩) (.tuple 2 [.int 7]) "xs" default ⟨0⟩ sampleClosure _ _ rfl rfl
      echoes_sample rfl rfl⟩

/-- Nothing can be bound where the variables of a scope were replaced by a list, and a closure that
is invoked with a spread of a text gets no arguments. -/
theorem destructuring_limited :
    (∃ e, Pattern.bindArray (machine 1) (.scope ⟨0⟩)
        (contentOf (.group .array sampleItems default)) (.tuple 2 [.int 7])
        (sampleStore (.list ⟨0⟩) .nil) = .failed e (sampleStore (.list ⟨0⟩) .nil)) ∧
    (sampleStore (.dict ⟨0⟩) (.str "ab")).elements (.str "ab") = .ok [.str "a", .str "b"] ∧
    ∃ l u, invoke 3 (.scope ⟨0⟩) (.closure ⟨0⟩) [.node (.leaf .rest "xs" default)]
        (sampleStore (.dict ⟨0⟩) (.str "ab")) = .done (.list l) u ∧
      (u.list l).toList = [.undefined, .undefined] :=
  ⟨⟨_, rfl⟩, rfl, ⟨_, _, rfl, rfl⟩⟩

end Lisplet
