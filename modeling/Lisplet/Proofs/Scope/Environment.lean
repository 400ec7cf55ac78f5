import Lisplet.Proofs.Scope.Denylist
import Lisplet.Proofs.Store.Tables
import Lisplet.Proofs.Value.Entries

/-!
# Scopes as environments

A history is what is done with scopes: they are made, each with variables and inside an earlier one
or none, and bare names are set in them, in any order. A history alone tells what each scope was
given and what stands around it, and from that follows what every lookup has to find: the value that
was given last to the name, in the nearest scope outwards that was given it at all.

Main statement: after every history the scopes in the store answer as the history says, and setting
a name in a scope changes no lookup from a scope that it is not around.
-/

namespace Lisplet

/-- Something done with scopes, which are numbered in the order in which they are made. -/
inductive ScopeStep where
  /-- A scope is made with variables, inside another scope or none. -/
  | make (vars : List (String × Value)) (outer : Option Nat)
  /-- A name is set in a scope. -/
  | set (scope : Nat) (name : String) (value : Value)

/-- Everything that was done with scopes, the last step first. -/
abbrev History := List ScopeStep

/-- A name without dots that is not on the denylist. -/
def BareName (denylist : List String) (name : String) : Prop :=
  '.' ∉ name.toList ∧ name ∉ denylist

/-- Whether a name is read-only in a scope that has a set of texts for it. -/
theorem ScopeRef.isReadOnly_of_set {s : Store} {r : ScopeRef} {id : Nat} {names : List String}
    (h : (s.scope r).readOnly = .set id (names.map .str)) (name : String) :
    r.isReadOnly (.str name) s = .done (decide (name ∈ names)) s := by
  have hread : Action.gets (fun s => (s.scope r).readOnly) s = .done (.set id (names.map .str)) s :=
    congrArg (Outcome.done · s) h
  refine (Action.bind_of_done hread).trans (congrArg (Outcome.done · s) ?_)
  show (names.map Value.str).any (·.key.toOption == some (Key.ofText name)) = _
  rw [Bool.eq_iff_iff, decide_eq_true_iff, List.any_eq_true]
  constructor
  · rintro ⟨v, hv, heq⟩
    obtain ⟨n, hn, rfl⟩ := List.mem_map.mp hv
    have hkey : some (Key.ofText n) = some (Key.ofText name) := eq_of_beq heq
    rwa [← Dict.ofText_inj.mp (Option.some.inj hkey)]
  · intro hmem
    exact ⟨.str name, List.mem_map_of_mem hmem, beq_self_eq_true (some (Key.ofText name))⟩

namespace History

/-! ## What a history tells -/

/-- The number of scopes that there are. -/
def scopes : History → Nat
  | [] => 0
  | .make _ _ :: earlier => scopes earlier + 1
  | .set _ _ _ :: earlier => scopes earlier

/-- Each scope is made inside an earlier one, and bare names are set in scopes that there are. -/
def Valid (denylist : List String) : History → Prop
  | [] => True
  | .make _ outer :: earlier => (∀ j ∈ outer, j < scopes earlier) ∧ Valid denylist earlier
  | .set i name _ :: earlier =>
    i < scopes earlier ∧ BareName denylist name ∧ Valid denylist earlier

/-- The names and values that a scope was made with. -/
def supplied (i : Nat) : History → List (String × Value)
  | [] => []
  | .make vars _ :: earlier => if i = scopes earlier then vars else supplied i earlier
  | .set _ _ _ :: earlier => supplied i earlier

/-- The names and values that a scope was given, when it was made and later, in order. -/
def given (i : Nat) : History → List (String × Value)
  | [] => []
  | .make vars _ :: earlier => if i = scopes earlier then vars else given i earlier
  | .set j name value :: earlier =>
    if i = j then given i earlier ++ [(name, value)] else given i earlier

/-- The scope that another one was made inside. -/
def outer (i : Nat) : History → Option Nat
  | [] => none
  | .make _ around :: earlier => if i = scopes earlier then around else outer i earlier
  | .set _ _ _ :: earlier => outer i earlier

/-- The scope was given the name. -/
def Has (h : History) (i : Nat) (name : String) : Prop := name ∈ (h.given i).map (·.1)

instance (h : History) (i : Nat) (name : String) : Decidable (h.Has i name) :=
  inferInstanceAs (Decidable (name ∈ (h.given i).map (·.1)))

/-- The second scope is the first one or stands around it. -/
inductive Reaches (h : History) : Nat → Nat → Prop where
  | here (i : Nat) : Reaches h i i
  | outwards {i j k : Nat} : h.outer i = some j → Reaches h j k → Reaches h i k

/-- The second scope is the nearest one, from the first one outwards, that was given the name. -/
inductive Nearest (h : History) (name : String) : Nat → Nat → Prop where
  | here {i : Nat} : h.Has i name → Nearest h name i i
  | outwards {i j k : Nat} : ¬h.Has i name → h.outer i = some j → Nearest h name j k →
    Nearest h name i k

/-! ## Carrying it out -/

/-- A scope of a history in the store, in which there were scopes before. -/
def ref (start : Store) (i : Nat) : ScopeRef := ⟨start.scopes.size + i⟩

/-- The scope of a history as a value, or nil. -/
def outerValue (start : Store) : Option Nat → Value
  | some j => .scope (ref start j)
  | none => .nil

/-- Carries out a step. -/
def step (start : Store) : ScopeStep → Action Unit
  | .make vars around => discard (Action.make (·.addScope vars (outerValue start around)))
  | .set i name value => discard ((ref start i).set name value)

/-- Carries out the steps of a history, the earliest first. -/
def carryOut (start : Store) : History → Action Unit
  | [] => return
  | last :: earlier => do
    carryOut start earlier
    step start last

/-- The store has the scopes of a history, behind those that were there before. -/
structure Models (start : Store) (h : History) (s : Store) : Prop where
  denylist : s.denylist = start.denylist
  scopes_size : s.scopes.size = start.scopes.size + h.scopes
  dicts_size : s.dicts.size = start.dicts.size + h.scopes
  scope : ∀ i < h.scopes, ∃ id, s.scope (ref start i) =
    ⟨.dict ⟨start.dicts.size + i⟩, .set id (Dict.ofTexts (h.supplied i)).keys,
      outerValue start (h.outer i)⟩
  vars : ∀ i < h.scopes, s.dict ⟨start.dicts.size + i⟩ = Dict.ofTexts (h.given i)

variable {start s t : Store} {h : History} {i j : Nat} {name : String} {value : Value}

/-! ## What the steps do -/

theorem dottedName_bare (hname : '.' ∉ name.toList) : dottedName name = (name, []) := by
  have hsegments : nameSegments name = [name] := by
    unfold nameSegments
    rw [List.splitOn_eq_singleton hname]
    simp
  exact dottedName_eq hsegments

/-- Binding a name in a scope with a dictionary of variables puts the value under it. -/
theorem bind_eq {r : ScopeRef} {d : DictRef} (hvars : (s.scope r).vars = .dict d) :
    r.bind (.str name) value s =
      .done () (s.setDict d ((s.dict d).insertText name value)) := by
  have hread : Action.gets (fun s => (s.scope r).vars) s = .done (.dict d) s :=
    congrArg (Outcome.done · s) hvars
  exact Action.bind_of_done hread

/-- Setting a bare name in a scope with a dictionary of variables does the same. -/
theorem set_bare {r : ScopeRef} {d : DictRef} (hname : BareName s.denylist name)
    (hvars : (s.scope r).vars = .dict d) :
    r.set name value s = .done value (s.setDict d ((s.dict d).insertText name value)) := by
  have hguard := Property.guardValue_str name s
  rw [if_neg hname.2] at hguard
  rw [ScopeRef.set_eq, dottedName_bare hname.1]
  exact (Action.bind_of_done hguard).trans (Action.bind_of_done (bind_eq hvars))

namespace Models

/-- A store that has no more scopes than before models the history in which nothing was done. -/
theorem nil (start : Store) : Models start [] start where
  denylist := rfl
  scopes_size := rfl
  dicts_size := rfl
  scope := fun _ hi => absurd hi (Nat.not_lt_zero _)
  vars := fun _ hi => absurd hi (Nat.not_lt_zero _)

/-- The variables of a scope are a dictionary of its own. -/
theorem scope_vars (hs : Models start h s) (hi : i < h.scopes) :
    (s.scope (ref start i)).vars = .dict ⟨start.dicts.size + i⟩ := by
  obtain ⟨id, hscope⟩ := hs.scope i hi
  rw [hscope]

theorem make (hs : Models start h s) (vars : List (String × Value)) (around : Option Nat) :
    Models start (.make vars around :: h) (s.addScope vars (outerValue start around)).2 := by
  have hdict := hs.dicts_size
  have hsize := hs.scopes_size
  refine ⟨hs.denylist, ?_, ?_, ?_, ?_⟩
  · show (s.scopes.push _).size = start.scopes.size + (h.scopes + 1)
    rw [Array.size_push]
    omega
  · show (s.dicts.push _).size = start.dicts.size + (h.scopes + 1)
    rw [Array.size_push]
    omega
  · intro i hi
    show ∃ id, (s.scopes.push _).getD (start.scopes.size + i) default = _
    rw [Store.getD_push]
    by_cases hlast : i = h.scopes
    · -- the scope that was made just now
      refine ⟨s.nextId, ?_⟩
      rw [if_pos (by omega)]
      simp [supplied, outer, hlast, hdict]
    · have hi' : i < h.scopes := by
        have : i < h.scopes + 1 := hi
        omega
      obtain ⟨id, hscope⟩ := hs.scope i hi'
      refine ⟨id, ?_⟩
      rw [if_neg (by show ¬start.scopes.size + i = s.scopes.size; omega)]
      refine hscope.trans ?_
      simp [supplied, outer, hlast]
  · intro i hi
    show (s.dicts.push _).getD (start.dicts.size + i) .empty = _
    rw [Store.getD_push]
    by_cases hlast : i = h.scopes
    · rw [if_pos (by omega)]
      simp [given, hlast]
    · have hi' : i < h.scopes := by
        have : i < h.scopes + 1 := hi
        omega
      rw [if_neg (by omega)]
      refine (hs.vars i hi').trans ?_
      simp [given, hlast]

theorem set (hs : Models start h s) (hi : i < h.scopes) (hname : BareName start.denylist name)
    (value : Value) :
    ∃ t, (ref start i).set name value s = .done value t ∧
      Models start (.set i name value :: h) t := by
  have hdict := hs.dicts_size
  refine ⟨_, set_bare (hs.denylist ▸ hname) (hs.scope_vars hi), ?_⟩
  refine ⟨hs.denylist, hs.scopes_size, ?_, hs.scope, ?_⟩
  · show (s.dicts.setIfInBounds _ _).size = _
    rw [Array.size_setIfInBounds]
    exact hdict
  · intro j hj
    have hj' : j < h.scopes := hj
    show (s.dicts.setIfInBounds (start.dicts.size + i) _).getD (start.dicts.size + j) .empty = _
    rw [Store.getD_setIfInBounds]
    by_cases hij : j = i
    · subst hij
      rw [if_pos (by omega), hs.vars j hj']
      simp [given, Dict.ofTexts_concat]
    · rw [if_neg (by omega)]
      refine (hs.vars j hj').trans ?_
      simp [given, hij]

end Models

/-- Every valid history can be carried out, and the store then has its scopes. -/
theorem carryOut_models (hvalid : h.Valid start.denylist) :
    ∃ s, carryOut start h start = .done () s ∧ Models start h s := by
  induction h with
  | nil => exact ⟨start, rfl, .nil start⟩
  | cons last earlier ih =>
    cases last with
    | make vars around =>
      obtain ⟨s, hdone, hs⟩ := ih hvalid.2
      exact ⟨_, Action.bind_of_done hdone, hs.make vars around⟩
    | set i name value =>
      obtain ⟨s, hdone, hs⟩ := ih hvalid.2.2
      obtain ⟨t, hset, ht⟩ := hs.set hvalid.1 hvalid.2.1 value
      refine ⟨t, (Action.bind_of_done hdone).trans ?_, ht⟩
      exact Action.bind_of_done hset

/-! ## Going outwards -/

/-- A scope is made inside an earlier one. -/
theorem Valid.outer_lt {denylist : List String} (hvalid : h.Valid denylist)
    (hij : h.outer i = some j) : j < i ∧ i < h.scopes := by
  induction h with
  | nil => cases hij
  | cons last earlier ih =>
    cases last with
    | make vars around =>
      simp only [outer] at hij
      split at hij
      · rename_i hlast
        have hj := hvalid.1 j hij
        subst hlast
        exact ⟨hj, Nat.lt_succ_self _⟩
      · have hlt := ih hvalid.2 hij
        exact ⟨hlt.1, Nat.lt_succ_of_lt hlt.2⟩
    | set k name value => exact ih hvalid.2.2 hij

/-- Outwards from a scope there is a nearest one that was given a name, or none was given it. -/
theorem nearest_or_none {denylist : List String} (hvalid : h.Valid denylist) (name : String)
    (i : Nat) : (∃ j, h.Nearest name i j) ∨ ∀ j, h.Reaches i j → ¬h.Has j name := by
  induction i using Nat.strong_induction_on with
  | _ i ih =>
    by_cases hhas : h.Has i name
    · exact .inl ⟨i, .here hhas⟩
    · cases houter : h.outer i with
      | none =>
        refine .inr fun j hreach => ?_
        cases hreach with
        | here => exact hhas
        | outwards hout _ =>
          rw [houter] at hout
          cases hout
      | some k =>
        rcases ih k (hvalid.outer_lt houter).1 with ⟨j, hnear⟩ | hnone
        · exact .inl ⟨j, .outwards hhas houter hnear⟩
        · refine .inr fun j hreach => ?_
          cases hreach with
          | here => exact hhas
          | outwards hout hrest =>
            rw [houter] at hout
            cases hout
            exact hnone j hrest

theorem Nearest.reaches (hnear : h.Nearest name i j) : h.Reaches i j ∧ h.Has j name := by
  induction hnear with
  | here hhas => exact ⟨.here _, hhas⟩
  | outwards _ hout _ ih => exact ⟨.outwards hout ih.1, ih.2⟩

theorem Nearest.lt_scopes {denylist : List String} (hnear : h.Nearest name i j)
    (hvalid : h.Valid denylist) (hi : i < h.scopes) : j < h.scopes := by
  induction hnear with
  | here => exact hi
  | outwards _ hout _ ih => exact ih (Nat.lt_trans (hvalid.outer_lt hout).1 hi)

/-- A scope that was given a name was given a last value for it. -/
theorem Has.lookup (hhas : h.Has i name) : ∃ v, (h.given i).reverse.lookup name = some v := by
  obtain ⟨⟨n, v⟩, hmem, rfl⟩ := List.mem_map.mp hhas
  cases hlookup : (h.given i).reverse.lookup n with
  | some w => exact ⟨w, rfl⟩
  | none =>
    have hne := List.lookup_eq_none_iff.mp hlookup (n, v) (List.mem_reverse.mpr hmem)
    simp at hne

/-! ## Setting a name changes nothing elsewhere -/

theorem reaches_set {k : Nat} :
    Reaches (.set i name value :: h) j k ↔ h.Reaches j k := by
  constructor
  · intro hreach
    induction hreach with
    | here => exact .here _
    | outwards hout _ ih => exact .outwards hout ih
  · intro hreach
    induction hreach with
    | here => exact .here _
    | outwards hout _ ih => exact .outwards hout ih

theorem given_set_of_ne (hij : j ≠ i) : given j (.set i name value :: h) = h.given j := by
  simp [given, hij]

theorem has_set_of_ne {other : String} (hij : j ≠ i) :
    Has (.set i name value :: h) j other ↔ h.Has j other := by
  unfold Has
  rw [given_set_of_ne hij]

/-- From a scope that another one is not around, the nearest scope with a name stays the nearest one
when a name is set in the other one. -/
theorem Nearest.set {k : Nat} {other : String} (hnear : h.Nearest other j k)
    (hreach : ¬h.Reaches j i) :
    Nearest (.set i name value :: h) other j k ∧ k ≠ i := by
  induction hnear with
  | @here j hhas =>
    have hji : j ≠ i := fun heq => hreach (heq ▸ .here j)
    exact ⟨.here ((has_set_of_ne hji).mpr hhas), hji⟩
  | @outwards j l k hhas hout _ ih =>
    have hji : j ≠ i := fun heq => hreach (heq ▸ .here j)
    obtain ⟨hnear, hki⟩ := ih fun hl => hreach (.outwards hout hl)
    exact ⟨.outwards (fun hset => hhas ((has_set_of_ne hji).mp hset)) hout hnear, hki⟩

/-! ## Lookups in the store -/

theorem contains_ofTexts (items : List (String × Value)) (name : String) :
    (Dict.ofTexts items).contains (Key.ofText name) = decide (name ∈ items.map (·.1)) := by
  have hget := Dict.getText?_ofTexts items name
  unfold Dict.getText? at hget
  unfold Dict.contains
  rw [hget, Bool.eq_iff_iff, List.lookup_isSome_iff, decide_eq_true_iff]
  constructor
  · rintro ⟨⟨n, v⟩, hmem, heq⟩
    exact List.mem_map.mpr ⟨(n, v), List.mem_reverse.mp hmem, (eq_of_beq heq).symm⟩
  · intro hmem
    obtain ⟨⟨n, v⟩, hitem, rfl⟩ := List.mem_map.mp hmem
    exact ⟨(n, v), List.mem_reverse.mpr hitem, beq_self_eq_true n⟩

namespace Models

/-- A walk outwards looks at what a scope was given, and then goes on to the one around it. -/
theorem holderWithin_succ (hs : Models start h s) (hi : i < h.scopes) (name : String)
    (fuel : Nat) :
    holderWithin (.str name) (fuel + 1) (.scope (ref start i)) s =
      if h.Has i name then .done (some (.dict ⟨start.dicts.size + i⟩)) s
      else holderWithin (.str name) fuel (outerValue start (h.outer i)) s := by
  obtain ⟨id, hscope⟩ := hs.scope i hi
  have hvars : (Value.scope (ref start i)).varsOf s = .done (.dict ⟨start.dicts.size + i⟩) s := by
    show Outcome.done (s.scope (ref start i)).vars s = _
    rw [hscope]
  have hparent : (Value.scope (ref start i)).parentOf s =
      .done (outerValue start (h.outer i)) s := by
    show Outcome.done (s.scope (ref start i)).parent s = _
    rw [hscope]
  have hcontains : Action.contains (.dict ⟨start.dicts.size + i⟩) (.str name) s =
      .done (decide (h.Has i name)) s := by
    show Outcome.done ((s.dict ⟨start.dicts.size + i⟩).contains (Key.ofText name)) s = _
    rw [hs.vars i hi, contains_ofTexts]
    rfl
  rw [holderWithin_scope, Action.bind_of_done hvars, Action.bind_of_done hcontains]
  by_cases hhas : h.Has i name
  · simp only [hhas, decide_true, if_true]
    rfl
  · simp only [hhas, decide_false, Bool.false_eq_true, if_false]
    exact Action.bind_of_done hparent

variable (hs : Models start h s) (hvalid : h.Valid start.denylist) (hi : i < h.scopes)

include hs hvalid hi

theorem holderWithin_of_nearest (hnear : h.Nearest name i j) {fuel : Nat} (hfuel : i < fuel) :
    holderWithin (.str name) fuel (.scope (ref start i)) s =
      .done (some (.dict ⟨start.dicts.size + j⟩)) s := by
  induction hnear generalizing fuel with
  | here hhas =>
    obtain ⟨fuel, rfl⟩ : ∃ k, fuel = k + 1 := ⟨fuel - 1, by omega⟩
    rw [hs.holderWithin_succ hi, if_pos hhas]
  | @outwards i k j hhas hout _ ih =>
    obtain ⟨fuel, rfl⟩ : ∃ k, fuel = k + 1 := ⟨fuel - 1, by omega⟩
    have hlt := (hvalid.outer_lt hout).1
    rw [hs.holderWithin_succ hi, if_neg hhas, hout]
    exact ih (Nat.lt_trans hlt hi) (by omega)

theorem holderWithin_of_none (hnone : ∀ j, h.Reaches i j → ¬h.Has j name) {fuel : Nat}
    (hfuel : i + 1 < fuel) :
    holderWithin (.str name) fuel (.scope (ref start i)) s = .done none s := by
  induction i using Nat.strong_induction_on generalizing fuel with
  | _ i ih =>
    obtain ⟨fuel, rfl⟩ : ∃ k, fuel = k + 2 := ⟨fuel - 2, by omega⟩
    rw [hs.holderWithin_succ hi, if_neg (hnone i (.here i))]
    cases hout : h.outer i with
    | none => rfl
    | some k =>
      have hlt := (hvalid.outer_lt hout).1
      exact ih k hlt (Nat.lt_trans hlt hi) (fun j hj => hnone j (.outwards hout hj)) (by omega)

omit hvalid in
theorem lt_chainLength : i + 1 < s.chainLength := by
  have := hs.scopes_size
  unfold Store.chainLength
  omega

theorem holder?_of_nearest (hnear : h.Nearest name i j) :
    holder? (.scope (ref start i)) (.str name) s =
      .done (some (.dict ⟨start.dicts.size + j⟩)) s :=
  hs.holderWithin_of_nearest hvalid hi hnear (Nat.lt_of_succ_lt (hs.lt_chainLength hi))

theorem holder?_of_none (hnone : ∀ j, h.Reaches i j → ¬h.Has j name) :
    holder? (.scope (ref start i)) (.str name) s = .done none s :=
  hs.holderWithin_of_none hvalid hi hnone (hs.lt_chainLength hi)

theorem isDefined_of_nearest (hnear : h.Nearest name i j) :
    (ref start i).isDefined (.str name) s = .done true s :=
  Action.bind_of_done (hs.holder?_of_nearest hvalid hi hnear)

theorem isDefined_of_none (hnone : ∀ j, h.Reaches i j → ¬h.Has j name) :
    (ref start i).isDefined (.str name) s = .done false s :=
  Action.bind_of_done (hs.holder?_of_none hvalid hi hnone)

omit hvalid in
theorem isReadOnly_eq (name : String) :
    (ref start i).isReadOnly (.str name) s =
      .done (decide (name ∈ (h.supplied i).map (·.1))) s := by
  obtain ⟨id, hscope⟩ := hs.scope i hi
  have hset : (s.scope (ref start i)).readOnly =
      .set id (((h.supplied i).map (·.1)).eraseDups.map .str) := by
    rw [hscope, ← Dict.keys_ofTexts]
  rw [ScopeRef.isReadOnly_of_set hset]
  simp only [List.mem_eraseDups]

variable (hname : BareName start.denylist name)

include hname

theorem getVar_of_nearest (hnear : h.Nearest name i j)
    (hvalue : (h.given j).reverse.lookup name = some value) :
    (ref start i).getVar (.str name) s = .done value s := by
  have hguard := Property.guardValue_str name s
  rw [hs.denylist, if_neg hname.2] at hguard
  have hget : (s.dict ⟨start.dicts.size + j⟩).getText? name = some value := by
    rw [hs.vars j (hnear.lt_scopes hvalid hi), Dict.getText?_ofTexts, hvalue]
  exact (Action.bind_of_done hguard).trans
    ((Action.bind_of_done (hs.holder?_of_nearest hvalid hi hnear)).trans (Action.subscript_dict hget))

theorem getVar_of_none (hnone : ∀ j, h.Reaches i j → ¬h.Has j name) :
    (ref start i).getVar (.str name) s = .done .undefined s := by
  have hguard := Property.guardValue_str name s
  rw [hs.denylist, if_neg hname.2] at hguard
  exact (Action.bind_of_done hguard).trans
    (Action.bind_of_done (hs.holder?_of_none hvalid hi hnone))

theorem get_of_nearest (hnear : h.Nearest name i j)
    (hvalue : (h.given j).reverse.lookup name = some value) :
    (ref start i).get name s = .done value s := by
  rw [ScopeRef.get_eq, dottedName_bare hname.1, ScopeRef.getAt_eq (hs.denylist ▸ hname.2),
    Action.bind_of_done (hs.isDefined_of_nearest hvalid hi hnear), if_pos rfl]
  exact Action.bind_of_done (hs.getVar_of_nearest hvalid hi hname hnear hvalue)

theorem get_of_none (hnone : ∀ j, h.Reaches i j → ¬h.Has j name) :
    (ref start i).get name s = .failed (.fresh (.undefined name)) s := by
  rw [ScopeRef.get_eq, dottedName_bare hname.1, ScopeRef.getAt_eq (hs.denylist ▸ hname.2),
    Action.bind_of_done (hs.isDefined_of_none hvalid hi hnone), if_neg Bool.false_ne_true]
  rfl

end Models

/-! ## What lookups find -/

/-- What a scope of a history answers about a name. -/
structure Answers (start : Store) (h : History) (s : Store) (i : Nat) (name : String) : Prop where
  /-- The name is defined if the scope or one around it was given it. -/
  isDefined : ∃ b, (ref start i).isDefined (.str name) s = .done b s ∧
    (b = true ↔ ∃ j, h.Reaches i j ∧ h.Has j name)
  /-- A name that is defined has the value that the nearest scope with it was given last. -/
  of_defined : (∃ j, h.Reaches i j ∧ h.Has j name) →
    ∃ j value, h.Nearest name i j ∧ (h.given j).reverse.lookup name = some value ∧
      (ref start i).getVar (.str name) s = .done value s ∧
      (ref start i).get name s = .done value s
  /-- A name that is not defined is void as a variable and an error as a name. -/
  of_undefined : (¬∃ j, h.Reaches i j ∧ h.Has j name) →
    (ref start i).getVar (.str name) s = .done .undefined s ∧
      (ref start i).get name s = .failed (.fresh (.undefined name)) s
  /-- A name is read-only in the scope if the scope was made with it. -/
  isReadOnly : ∃ b, (ref start i).isReadOnly (.str name) s = .done b s ∧
    (b = true ↔ name ∈ (h.supplied i).map (·.1))

theorem Models.answers (hs : Models start h s) (hvalid : h.Valid start.denylist)
    (hi : i < h.scopes) (hname : BareName start.denylist name) : Answers start h s i name := by
  have hreadOnly := hs.isReadOnly_eq hi name
  rcases nearest_or_none hvalid name i with ⟨j, hnear⟩ | hnone
  · obtain ⟨value, hvalue⟩ := hnear.reaches.2.lookup
    refine ⟨⟨true, hs.isDefined_of_nearest hvalid hi hnear, ?_⟩, fun _ => ?_, fun hnot => ?_,
      _, hreadOnly, decide_eq_true_iff⟩
    · exact ⟨fun _ => ⟨j, hnear.reaches⟩, fun _ => rfl⟩
    · exact ⟨j, value, hnear, hvalue, hs.getVar_of_nearest hvalid hi hname hnear hvalue,
        hs.get_of_nearest hvalid hi hname hnear hvalue⟩
    · exact absurd ⟨j, hnear.reaches⟩ hnot
  · have hnot : ¬∃ j, h.Reaches i j ∧ h.Has j name := fun ⟨j, hreach, hhas⟩ => hnone j hreach hhas
    refine ⟨⟨false, hs.isDefined_of_none hvalid hi hnone, ?_⟩, fun hdef => absurd hdef hnot,
      fun _ => ?_, _, hreadOnly, decide_eq_true_iff⟩
    · exact ⟨fun hfalse => absurd hfalse Bool.false_ne_true, fun hdef => absurd hdef hnot⟩
    · exact ⟨hs.getVar_of_none hvalid hi hname hnone, hs.get_of_none hvalid hi hname hnone⟩

/-- The own names of a scope stand in the order in which it was given them first. -/
theorem Models.keys (hs : Models start h s) (hi : i < h.scopes) :
    (s.vars (ref start i)).keys = ((h.given i).map (·.1)).eraseDups.map .str := by
  unfold Store.vars
  rw [hs.scope_vars hi]
  show (s.dict ⟨start.dicts.size + i⟩).keys = _
  rw [hs.vars i hi, Dict.keys_ofTexts]

/-- Two stores answer alike about a name from a scope. -/
structure SameAnswers (s t : Store) (r : ScopeRef) (name : String) : Prop where
  isDefined : ∃ b, r.isDefined (.str name) s = .done b s ∧ r.isDefined (.str name) t = .done b t
  getVar : ∃ v, r.getVar (.str name) s = .done v s ∧ r.getVar (.str name) t = .done v t
  get : (∃ v, r.get name s = .done v s ∧ r.get name t = .done v t) ∨
    ∃ e, r.get name s = .failed e s ∧ r.get name t = .failed e t
  isReadOnly : ∃ b, r.isReadOnly (.str name) s = .done b s ∧ r.isReadOnly (.str name) t = .done b t

/-- Setting a name in a scope changes no answer of a scope that it is not around. -/
theorem Models.sameAnswers {other : String} (hs : Models start h s)
    (ht : Models start (.set i name value :: h) t) (hvalid : Valid start.denylist
      (.set i name value :: h)) (hj : j < h.scopes) (hreach : ¬h.Reaches j i)
    (hother : BareName start.denylist other) : SameAnswers s t (ref start j) other := by
  have hvalid' : h.Valid start.denylist := hvalid.2.2
  have hj' : j < scopes (.set i name value :: h) := hj
  have hreadOnly : ∃ b, (ref start j).isReadOnly (.str other) s = .done b s ∧
      (ref start j).isReadOnly (.str other) t = .done b t :=
    ⟨_, hs.isReadOnly_eq hj other, ht.isReadOnly_eq hj' other⟩
  rcases nearest_or_none hvalid' other j with ⟨k, hnear⟩ | hnone
  · obtain ⟨v, hv⟩ := hnear.reaches.2.lookup
    have hset : Nearest (.set i name value :: h) other j k ∧ k ≠ i := hnear.set hreach
    obtain ⟨hnear', hki⟩ := hset
    have hv' : (given k (.set i name value :: h)).reverse.lookup other = some v := by
      rw [given_set_of_ne hki, hv]
    exact ⟨⟨true, hs.isDefined_of_nearest hvalid' hj hnear,
        ht.isDefined_of_nearest hvalid hj' hnear'⟩,
      ⟨v, hs.getVar_of_nearest hvalid' hj hother hnear hv,
        ht.getVar_of_nearest hvalid hj' hother hnear' hv'⟩,
      .inl ⟨v, hs.get_of_nearest hvalid' hj hother hnear hv,
        ht.get_of_nearest hvalid hj' hother hnear' hv'⟩, hreadOnly⟩
  · have hnone' : ∀ k, Reaches (.set i name value :: h) j k →
        ¬Has (.set i name value :: h) k other := by
      intro k hk hhas
      have hk' := reaches_set.mp hk
      have hki : k ≠ i := fun heq => hreach (heq ▸ hk')
      exact hnone k hk' ((has_set_of_ne hki).mp hhas)
    exact ⟨⟨false, hs.isDefined_of_none hvalid' hj hnone,
        ht.isDefined_of_none hvalid hj' hnone'⟩,
      ⟨.undefined, hs.getVar_of_none hvalid' hj hother hnone,
        ht.getVar_of_none hvalid hj' hother hnone'⟩,
      .inr ⟨_, hs.get_of_none hvalid' hj hother hnone,
        ht.get_of_none hvalid hj' hother hnone'⟩, hreadOnly⟩

/-- A name that a scope has keeps its place when it is set again, and a new one comes last. -/
theorem Models.keys_set (hs : Models start h s) (ht : Models start (.set i name value :: h) t)
    (hi : i < h.scopes) :
    (t.vars (ref start i)).keys = if h.Has i name then (s.vars (ref start i)).keys
      else (s.vars (ref start i)).keys ++ [.str name] := by
  have hi' : i < scopes (.set i name value :: h) := hi
  have hgiven : given i (.set i name value :: h) = h.given i ++ [(name, value)] := by simp [given]
  rw [ht.keys hi', hs.keys hi, hgiven, List.map_append, List.eraseDups_append]
  by_cases hhas : h.Has i name
  · have hmem : name ∈ (h.given i).map (·.1) := hhas
    rw [if_pos hhas]
    simp [List.removeAll, hmem]
  · have hmem : name ∉ (h.given i).map (·.1) := hhas
    rw [if_neg hhas]
    simp [List.removeAll, hmem, List.eraseDups_cons]

/-- Every valid history can be carried out from every store. Afterwards each of its scopes answers
about each bare name as the history says and has its own names in the order in which it was given
them. Setting a bare name then succeeds, changes no answer of a scope that the scope is not around,
and leaves a name that the scope has in its place. -/
theorem lookup_spec (start : Store) (h : History) (hvalid : h.Valid start.denylist) :
    ∃ s, carryOut start h start = .done () s ∧
      (∀ i < h.scopes,
        (∀ name, BareName start.denylist name → Answers start h s i name) ∧
        (s.vars (ref start i)).keys = ((h.given i).map (·.1)).eraseDups.map .str) ∧
      ∀ i < h.scopes, ∀ name value, BareName start.denylist name →
        ∃ t, (ref start i).set name value s = .done value t ∧
          (∀ j < h.scopes, ¬h.Reaches j i → ∀ other, BareName start.denylist other →
            SameAnswers s t (ref start j) other) ∧
          (t.vars (ref start i)).keys = if h.Has i name then (s.vars (ref start i)).keys
            else (s.vars (ref start i)).keys ++ [.str name] := by
  obtain ⟨s, hdone, hs⟩ := carryOut_models hvalid
  refine ⟨s, hdone, fun i hi => ⟨fun name hname => hs.answers hvalid hi hname, hs.keys hi⟩, ?_⟩
  intro i hi name value hname
  obtain ⟨t, hset, ht⟩ := hs.set hi hname value
  refine ⟨t, hset, fun j hj hreach other hother => ?_, hs.keys_set ht hi⟩
  exact hs.sameAnswers ht ⟨hi, hname, hvalid⟩ hj hreach hother

/-- A name is hidden by an inner scope, which has it as void, and another one is set further out
after the inner scope was made. -/
def shadowed : History :=
  [.set 0 "y" (.int 3), .set 1 "x" .undefined, .make [] (some 0), .make [("x", .int 1)] none]

theorem lookup_spec_shadowed : shadowed.Valid ["constructor"] ∧
    ∃ s, carryOut (Store.empty ["constructor"]) shadowed (Store.empty ["constructor"]) =
        .done () s ∧
      Answers (Store.empty ["constructor"]) shadowed s 1 "x" ∧
      Answers (Store.empty ["constructor"]) shadowed s 1 "y" ∧
      (s.vars (ref (Store.empty ["constructor"]) 0)).keys = [.str "x", .str "y"] := by
  have hvalid : shadowed.Valid ["constructor"] := by
    refine ⟨by decide, ⟨by decide, by decide⟩, by decide, ⟨by decide, by decide⟩, ?_, ?_, trivial⟩
    · intro j hj
      cases hj
      decide
    · intro j hj
      cases hj
  obtain ⟨s, hdone, hanswers, _⟩ := lookup_spec (Store.empty ["constructor"]) shadowed hvalid
  refine ⟨hvalid, s, hdone, (hanswers 1 (by decide)).1 "x" ⟨by decide, by decide⟩,
    (hanswers 1 (by decide)).1 "y" ⟨by decide, by decide⟩, ?_⟩
  exact (hanswers 0 (by decide)).2

end History

end Lisplet
