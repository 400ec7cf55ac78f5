import Lisplet.Evaluation.Eval
import Lisplet.Proofs.Evaluation.Operands
import Lisplet.Proofs.Property.Additions
import Lisplet.Proofs.Store.Enlarging
import Lisplet.Proofs.Scope.Environment

/-!
# Definitions and read-only names

A definition refuses a target that is an identifier and read-only in the scope, before it does
anything else. No definition changes what a name is bound to in the scope unless the name is in its
target; so a read-only name keeps its value if the target is an identifier, or is not there in the
target. A text or a key as a target, and the names inside a pattern, are not checked: they are bound
whether they are read-only or not.
-/

namespace Lisplet

open Lisplet.Action

namespace Store

/-- What a name is bound to in a scope itself. -/
def binding (s : Store) (r : ScopeRef) (name : String) : Option Value := (s.vars r).getText? name

/-- If the variables of the scope are a dictionary, the store has it. -/
def HasVars (s : Store) (r : ScopeRef) : Prop :=
  ∀ d, (s.scope r).vars = .dict d → d.index < s.dicts.size

/-- The scope is as it was, apart from what some names are bound to in it. -/
structure BindsOnly (r : ScopeRef) (names : List String) (s t : Store) : Prop where
  scope : t.scope r = s.scope r
  hasVars : s.HasVars r → t.HasVars r
  binding : s.HasVars r → ∀ name ∉ names, t.binding r name = s.binding r name

namespace BindsOnly

variable {r : ScopeRef} {names : List String} {s t : Store}

instance : IsPreorder Store (BindsOnly r names) where
  refl s := ⟨rfl, fun h => h, fun _ _ _ => rfl⟩
  trans s t u h h' := by
    refine ⟨h'.scope.trans h.scope, fun hs => h'.hasVars (h.hasVars hs), fun hs name hname => ?_⟩
    rw [h'.binding (h.hasVars hs) name hname, h.binding hs name hname]

theorem mono {others : List String} (h : BindsOnly r names s t) (hsub : names ⊆ others) :
    BindsOnly r others s t :=
  ⟨h.scope, h.hasVars, fun hs name hname => h.binding hs name fun hmem => hname (hsub hmem)⟩

theorem vars_of_dict {d : DictRef} (hd : (s.scope r).vars = .dict d) : s.vars r = s.dict d := by
  unfold Store.vars
  rw [hd]

theorem vars_eq (hscope : t.scope r = s.scope r)
    (hdict : ∀ d, (s.scope r).vars = .dict d → t.dict d = s.dict d) : t.vars r = s.vars r := by
  unfold Store.vars
  rw [hscope]
  cases hvars : (s.scope r).vars with
  | dict d => exact hdict d hvars
  | _ => rfl

theorem of_enlarged (h : Enlarged s t) : BindsOnly r names s t := by
  have hscope := h.scope r
  refine ⟨hscope, fun hs d hd => ?_, fun hs name _ => ?_⟩
  · rw [hscope] at hd
    exact (h.dict (hs d hd)).1
  · unfold Store.binding
    rw [vars_eq hscope fun d hd => (h.dict (hs d hd)).2]

/-- Putting a value under a name into the variables. -/
theorem setDict {d : DictRef} {name : String} (value : Value)
    (hd : (s.scope r).vars = .dict d) (hname : name ∈ names) :
    BindsOnly r names s (s.setDict d ((s.dict d).insertText name value)) := by
  refine ⟨rfl, fun hs d' hd' => ?_, fun hs other hother => ?_⟩
  · rw [size_setDict]
    exact hs d' hd'
  · have hne : Key.ofText other ≠ Key.ofText name :=
      fun heq => hother (Dict.ofText_inj.mp heq ▸ hname)
    have hvars : (s.setDict d ((s.dict d).insertText name value)).vars r =
        (s.dict d).insertText name value := by
      have hd' : ((s.setDict d ((s.dict d).insertText name value)).scope r).vars = .dict d := hd
      rw [vars_of_dict hd']
      show (s.dicts.setIfInBounds d.index _).getD d.index .empty = _
      rw [getD_setIfInBounds, if_pos ⟨rfl, hs d hd⟩]
    unfold Store.binding
    rw [hvars, vars_of_dict hd]
    exact (Dict.get?_insert _ _ _ _ _).trans (if_neg hne)

end BindsOnly

end Store

/-! ## Binding names -/

namespace Action.Moves

variable {α : Type} {a : Action α} {r : ScopeRef} {names : List String}

theorem of_enlarges (h : Enlarges a) : Moves (Store.BindsOnly r names) a :=
  h.weaken fun _ _ => .of_enlarged

theorem of_extends (h : Extends a) : Moves (Store.BindsOnly r names) a :=
  of_enlarges (.of_extends h)

end Action.Moves

variable {r : ScopeRef} {names : List String} {name : String} {value : Value} {m : Machine}

/-- Where the variables are no dictionary, nothing can be bound. -/
theorem ScopeRef.bind_of_not_dict {s : Store} (h : ∀ d, (s.scope r).vars ≠ .dict d)
    (name value : Value) : ∃ e, r.bind name value s = .failed e s := by
  cases hvars : (s.scope r).vars with
  | dict d => exact absurd hvars (h d)
  | _ =>
    have hread : Action.gets (fun s => (s.scope r).vars) s = .done _ s :=
      congrArg (Outcome.done · s) hvars
    exact ⟨_, Action.bind_of_done hread⟩

theorem ScopeRef.bind_moves (r : ScopeRef) (value : Value) (hname : name ∈ names) :
    Moves (Store.BindsOnly r names) (r.bind (.str name) value) := by
  intro s
  by_cases hdict : ∃ d, (s.scope r).vars = .dict d
  · obtain ⟨d, hd⟩ := hdict
    rw [History.bind_eq hd]
    exact Store.BindsOnly.setDict value hd hname
  · obtain ⟨e, he⟩ := bind_of_not_dict (fun d hd => hdict ⟨d, hd⟩) (.str name) value
    rw [he]
    exact refl_of (Store.BindsOnly r names) s

/-- Assigning to a name without dots changes at most what this name is bound to. -/
theorem Machine.assign_moves (m : Machine) (r : ScopeRef) (value : Value) (hdot : '.' ∉ name.toList)
    (hname : name ∈ names) :
    Moves (Store.BindsOnly r names) (m.assign (.scope r) (.str name) value) := by
  have hassign : m.assign (.scope r) (.str name) value = r.setAt (.str name) [] value := by
    show r.setAt (.str (dottedName name).1) (dottedName name).2 value = _
    rw [History.dottedName_bare hdot]
  rw [hassign]
  refine (Property.guardValue_reads _).moves.bind fun _ => ?_
  exact (r.bind_moves value hname).bind fun _ => .ret _

/-! ## Targets -/

/-- The name that an item of a pattern binds, if it is an identifier or a rest. -/
def Expr.itemName? : Expr → Option String
  | .leaf .identifier text _ | .leaf .rest text _ => some text
  | _ => none

/-- The names that binding a target binds. -/
def Expr.boundNames : Expr → List String
  | .leaf .identifier text _ | .leaf .string text _ | .leaf .key text _ => [text]
  | .group .array items _ | .group .object items _ => items.filterMap Expr.itemName?
  | _ => []

/-- No name is a path of properties. -/
def Undotted (names : List String) : Prop := ∀ name ∈ names, '.' ∉ name.toList

/-- The item binds one of these names at most, and no path of properties. -/
def Expr.BindsAmong (names : List String) (item : Expr) : Prop :=
  ∀ name, item.itemName? = some name → '.' ∉ name.toList ∧ name ∈ names

theorem foldItems_moves {σ : Type} {R : Store → Store → Prop} [IsPreorder Store R]
    {step : Value → σ → Action (ForInStep σ)} {items : List Value}
    (h : ∀ v ∈ items, ∀ acc, Moves R (step v acc)) (acc : σ) :
    Moves R (foldItems step items acc) := by
  induction items generalizing acc with
  | nil => exact .ret acc
  | cons v rest ih =>
    refine Moves.bind (h v List.mem_cons_self acc) fun next => ?_
    cases next with
    | done acc => exact .ret acc
    | yield acc => exact ih (fun w hw => h w (List.mem_cons_of_mem _ hw)) acc

namespace Pattern

theorem Source.elements_enlarges (source : Source) : Enlarges source.elements := by
  unfold Source.elements
  grind

theorem sourceOf_enlarges (v : Value) : Enlarges (sourceOf v) := by
  unfold sourceOf
  grind

theorem bindPosition_moves (source : Source) {item : Expr} (hitem : item.BindsAmong names)
    (i : Nat) :
    Moves (Store.BindsOnly r names) (bindPosition m (.scope r) source (.node item) i) := by
  have hsource : Moves (Store.BindsOnly r names) source.elements :=
    .of_enlarges source.elements_enlarges
  unfold bindPosition
  rw [Operand.kind_node, pure_bind]
  split
  · next hkind =>
    obtain ⟨text, mark, rfl⟩ := Node.exists_leaf_of_kind (Operand.denotes_kind.mp hkind)
    obtain ⟨hdot, hname⟩ := hitem text rfl
    exact hsource.bind fun items => (m.assign_moves r _ hdot hname).bind fun _ => .ret _
  · split
    · next hkind =>
      obtain ⟨text, mark, rfl⟩ := Node.exists_leaf_of_kind (Operand.denotes_kind.mp hkind)
      obtain ⟨hdot, hname⟩ := hitem text rfl
      exact hsource.bind fun items => (Moves.of_enlarges (Enlarges.newList _)).bind fun _ =>
        (m.assign_moves r _ hdot hname).bind fun _ => .ret _
    · exact .ret _

theorem bindArray_moves {items : List Expr} (hitems : ∀ item ∈ items, item.BindsAmong names)
    (mark : Mark) (v : Value) :
    Moves (Store.BindsOnly r names)
      (bindArray m (.scope r) (contentOf (.group .array items mark)) v) := by
  refine Moves.bind (.of_enlarges (sourceOf_enlarges v)) fun source => .discard ?_
  rw [m.foldElements_group]
  refine foldItems_moves (fun v hv i => ?_) 0
  obtain ⟨item, hitem, rfl⟩ := List.mem_map.mp hv
  exact bindPosition_moves source (hitems item hitem) i

theorem bindProperty_moves (v : Value) {item : Expr} (hitem : item.BindsAmong names)
    (selected : List Key) :
    Moves (Store.BindsOnly r names) (bindProperty m (.scope r) v (.node item) selected) := by
  unfold bindProperty
  rw [Operand.kind_node, pure_bind]
  split
  · next hkind =>
    obtain ⟨text, mark, rfl⟩ := Node.exists_leaf_of_kind (Operand.denotes_kind.mp hkind)
    obtain ⟨hdot, hname⟩ := hitem text rfl
    rw [Operand.content_leaf, pure_bind]
    refine Moves.bind (.keyOf _) fun _ => Moves.bind (.ret ()) fun _ => ?_
    exact (Moves.of_extends (Property.get_extends v _)).bind fun _ =>
      (m.assign_moves r _ hdot hname).bind fun _ => .ret _
  · split
    · next hkind =>
      obtain ⟨text, mark, rfl⟩ := Node.exists_leaf_of_kind (Operand.denotes_kind.mp hkind)
      obtain ⟨hdot, hname⟩ := hitem text rfl
      exact (Moves.of_extends (Property.own_extends v)).bind fun own =>
        (Moves.of_enlarges (Enlarges.newDict _)).bind fun _ =>
          (m.assign_moves r _ hdot hname).bind fun _ => .ret _
    · exact .ret _

theorem bindObject_moves {items : List Expr} (hitems : ∀ item ∈ items, item.BindsAmong names)
    (mark : Mark) (v : Value) :
    Moves (Store.BindsOnly r names)
      (bindObject m (.scope r) (contentOf (.group .object items mark)) v) := by
  unfold bindObject
  rw [m.foldElements_group]
  refine .discard (foldItems_moves (fun w hw selected => ?_) [])
  obtain ⟨item, hitem, rfl⟩ := List.mem_map.mp hw
  exact bindProperty_moves v (hitems item hitem) selected

theorem bindsAmong_items {items : List Expr} (hdots : Undotted (items.filterMap Expr.itemName?)) :
    ∀ item ∈ items, item.BindsAmong (items.filterMap Expr.itemName?) := by
  intro item hitem name hname
  have hmem := List.mem_filterMap.mpr ⟨item, hitem, hname⟩
  exact ⟨hdots name hmem, hmem⟩

/-- Binding a target changes at most what the names in it are bound to. -/
theorem bindTarget_moves {target : Expr} (hdots : Undotted target.boundNames) (v : Value) :
    Moves (Store.BindsOnly r target.boundNames) (bindTarget m (.scope r) (.node target) v) := by
  unfold bindTarget
  rw [Operand.kind_node, pure_bind]
  split
  · next hkind =>
    obtain ⟨items, mark, rfl⟩ := Node.exists_group_of_kind (Operand.isKind_kind.mp hkind)
    exact (bindArray_moves (bindsAmong_items hdots) mark v).bind fun _ => .ret _
  · split
    · next hkind =>
      obtain ⟨items, mark, rfl⟩ := Node.exists_group_of_kind (Operand.isKind_kind.mp hkind)
      exact (bindObject_moves (bindsAmong_items hdots) mark v).bind fun _ => .ret _
    · split
      · next hkind =>
        obtain ⟨k, hk, hdenotes⟩ := List.any_eq_true.mp hkind
        obtain ⟨text, mark, rfl⟩ := Node.exists_leaf_of_kind (Operand.denotes_kind.mp hdenotes)
        have hmem : text ∈ Expr.boundNames (.leaf k text mark) := by
          simp only [List.mem_cons, List.not_mem_nil, or_false] at hk
          rcases hk with rfl | rfl | rfl <;> exact List.mem_singleton.mpr rfl
        rw [Operand.content_leaf, pure_bind]
        exact m.assign_moves r v (hdots text hmem) hmem
      · exact Moves.bind (.of_extends (Operand.described_extends _)) fun _ => .raise _

end Pattern

/-! ## Definitions -/

namespace Form

/-- The read-only names of a scope. -/
def ReadOnlyNames (s : Store) (r : ScopeRef) (names : List String) : Prop :=
  ∃ id, (s.scope r).readOnly = .set id (names.map .str)

theorem makeClosure_enlarges (scope : Value) (operands : List Value) :
    Enlarges (makeClosure scope operands) := by
  unfold makeClosure
  split
  · exact .raise _
  · refine Moves.bind (Enlarges.of_extends (Operand.isA_extends _ _)) fun isArray => ?_
    split
    · exact (Enlarges.newTuple _).bind fun _ => (Enlarges.addClosure _).bind fun _ => .ret _
    · exact (Enlarges.of_extends (Operand.described_extends _)).bind fun _ => .raise _

variable {s : Store} {target : Expr} {rest : List Value}

/-- An identifier is checked and nothing else happens. -/
theorem checkRebind_identifier (m : Machine) (h : ReadOnlyNames s r names) (name : String)
    (mark : Mark) :
    checkRebind m (.scope r) (.node (.leaf .identifier name mark)) s =
      if name ∈ names then .failed (.fresh (.readOnly name)) s else .done () s := by
  obtain ⟨id, h⟩ := h
  show (r.isReadOnly (.str name) >>= _) s = _
  rw [Action.bind_of_done (r.isReadOnly_of_set h name)]
  by_cases hmem : name ∈ names
  · rw [if_pos (decide_eq_true hmem), if_pos hmem]
    rfl
  · rw [if_neg (decide_eq_false hmem ▸ Bool.false_ne_true), if_neg hmem]
    rfl

/-- No other target is checked. -/
theorem checkRebind_other (h : target.kind ≠ .leaf .identifier) (scope : Value) :
    checkRebind m scope (.node target) = pure () := by
  unfold checkRebind Operand.isA
  rw [Operand.kind_node, pure_bind, pure_bind, if_neg fun hkind => h (Operand.isKind_kind.mp hkind)]

/-- A definition checks its target and then assigns. -/
theorem runDefine_node (scope : Value) :
    runDefine m scope (.node target :: rest) =
      checkRebind m scope (.node target) >>= fun _ => runAssign m scope (.node target :: rest) :=
  rfl

theorem runDefineFunction_identifier (scope : Value) (name : String) (mark : Mark) :
    runDefineFunction m scope (.node (.leaf .identifier name mark) :: rest) =
      checkRebind m scope (.node (.leaf .identifier name mark)) >>= fun _ =>
        Machine.checkAssignable scope >>= fun _ =>
          makeClosure scope rest >>= m.assign scope (.str name) :=
  rfl

theorem runDefineFunction_other (h : target.kind ≠ .leaf .identifier) (scope : Value) :
    runDefineFunction m scope (.node target :: rest) =
      Operand.described (.node target) >>= fun described =>
        .raise (.badFunctionName described.1 described.2) := by
  show (Operand.isA _ (.node target) >>= _) = _
  unfold Operand.isA
  rw [Operand.kind_node, pure_bind, pure_bind, if_neg fun hkind => h (Operand.isKind_kind.mp hkind)]
  rfl

/-- What a definition does after it has counted its operands. -/
def defining (m : Machine) (scope : Value) (operands : List Value) : Form → Action Value
  | .defineFunction => runDefineFunction m scope operands
  | _ => runDefine m scope operands

theorem defining_define (scope : Value) (operands : List Value) :
    Form.define.defining m scope operands = runDefine m scope operands :=
  rfl

theorem defining_defineFunction (scope : Value) (operands : List Value) :
    Form.defineFunction.defining m scope operands = runDefineFunction m scope operands :=
  rfl

variable {form : Form} (hform : form = .define ∨ form = .defineFunction)

include hform

theorem run_definition (scope : Value) (operands : List Value) :
    form.run m scope operands =
      form.signature.check (operands.length + 1) >>= fun _ => form.defining m scope operands := by
  rcases hform with rfl | rfl <;> rfl

variable (hset : ReadOnlyNames s r names)

include hset

theorem defining_readOnly (hname : name ∈ names) (mark : Mark) :
    form.defining m (.scope r) (.node (.leaf .identifier name mark) :: rest) s =
      .failed (.fresh (.readOnly name)) s := by
  have hcheck := checkRebind_identifier m hset name mark
  rw [if_pos hname] at hcheck
  rcases hform with rfl | rfl
  · exact Action.bind_of_failed hcheck
  · rw [defining_defineFunction, runDefineFunction_identifier]
    exact Action.bind_of_failed hcheck

variable (heval : (m.eval (.scope r) (operand rest 0) s).Moves (Store.BindsOnly r []) s)

include heval

/-- If the value leaves the scope alone, the definition changes at most what the names in its target
are bound to. -/
theorem defining_moves (hdots : Undotted target.boundNames) :
    (form.defining m (.scope r) (.node target :: rest) s).Moves
      (Store.BindsOnly r target.boundNames) s := by
  have hassign : (runAssign m (.scope r) (.node target :: rest) s).Moves
      (Store.BindsOnly r target.boundNames) s :=
    Moves.bind_at (heval.weaken fun t h => h.mono (List.nil_subset _))
      (Pattern.bindTarget_moves hdots)
  by_cases hkind : target.kind = .leaf .identifier
  · obtain ⟨text, mark, rfl⟩ := Node.exists_leaf_of_kind hkind
    by_cases hname : text ∈ names
    · rw [defining_readOnly hform hset hname]
      exact refl_of (Store.BindsOnly r _) s
    · have hcheck := checkRebind_identifier m hset text mark
      rw [if_neg hname] at hcheck
      have hmem : text ∈ Expr.boundNames (.leaf .identifier text mark) := List.mem_singleton_self _
      rcases hform with rfl | rfl
      · rw [defining_define, runDefine_node, Action.bind_of_done hcheck]
        exact hassign
      · rw [defining_defineFunction, runDefineFunction_identifier, Action.bind_of_done hcheck]
        exact Moves.bind (.ret ()) (fun _ => Moves.bind (.of_enlarges (makeClosure_enlarges _ _))
          fun closure => m.assign_moves r closure (hdots text hmem) hmem) s
  · rcases hform with rfl | rfl
    · rw [defining_define, runDefine_node, checkRebind_other hkind]
      exact hassign
    · rw [defining_defineFunction, runDefineFunction_other hkind]
      exact Moves.bind (.of_extends (Operand.described_extends _)) (fun _ => .raise _) s

/-- A definition does not change what a read-only name of its scope is bound to, whichever way it
ends, if its target is an identifier or does not have the name in it, and an identifier that is
read-only is refused before anything else happens. A target of any other shape is not checked: the
definition is then an assignment. -/
theorem definition_spec (hvars : s.HasVars r) (hdots : Undotted target.boundNames) :
    (form.run m (.scope r) (.node target :: rest) s).Moves (fun s t => ∀ name ∈ names,
      (target.kind = .leaf .identifier ∨ name ∉ target.boundNames) →
        t.binding r name = s.binding r name) s ∧
    (∀ name ∈ names, ∀ mark, target = .leaf .identifier name mark →
      form.signature.check (rest.length + 2) = pure () →
        form.run m (.scope r) (.node target :: rest) s = .failed (.fresh (.readOnly name)) s) ∧
    (target.kind ≠ .leaf .identifier →
      runDefine m (.scope r) (.node target :: rest) =
        runAssign m (.scope r) (.node target :: rest)) := by
  rw [run_definition hform]
  refine ⟨?_, fun name hname mark htarget hcount => ?_, fun hkind => ?_⟩
  · have hmoves := defining_moves hform hset heval hdots
    rcases form.signature.check_eq ((.node target :: rest : List Value).length + 1) with
      hcheck | ⟨fault, hcheck⟩
    · rw [hcheck, pure_bind]
      by_cases hrefused : ∃ text ∈ names, ∃ mark, target = .leaf .identifier text mark
      · obtain ⟨text, htext, mark, rfl⟩ := hrefused
        rw [defining_readOnly hform hset htext]
        exact fun _ _ _ => rfl
      · refine hmoves.weaken fun t h name hname hor => h.binding hvars name ?_
        rcases hor with hkind | hmem
        · obtain ⟨text, mark, rfl⟩ := Node.exists_leaf_of_kind hkind
          intro hmem
          exact hrefused ⟨name, hname, mark, by rw [List.mem_singleton.mp hmem]⟩
        · exact hmem
    · rw [hcheck]
      exact fun _ _ _ => rfl
  · subst htarget
    rw [List.length_cons, hcount, pure_bind]
    exact defining_readOnly hform hset hname mark
  · rw [runDefine_node, checkRebind_other hkind, pure_bind]

omit hform hset heval

/-- A scope that was made with one name and has a closure under another one. -/
def frozenStore : Store :=
  { Store.empty [] with
    dicts := #[.ofTexts [("x", .int 1), ("f", .closure ⟨0⟩)]]
    scopes := #[⟨.dict ⟨0⟩, .set 0 [.str "x"], .nil⟩]
    closures := #[⟨.nil, .emptyTuple, .scope ⟨0⟩⟩] }

theorem frozenStore_readOnly : ReadOnlyNames frozenStore ⟨0⟩ ["x"] := ⟨0, rfl⟩

/-- The value that its name is to be bound to. -/
def newValue : Value := .node (.leaf .string "a" default)

theorem definition_spec_frozen :
    run (machine 1) .define (.scope ⟨0⟩) [.node (.leaf .identifier "x" default), newValue]
      frozenStore = .failed (.fresh (.readOnly "x")) frozenStore := by
  have hvars : frozenStore.HasVars ⟨0⟩ := by
    intro d hd
    cases hd
    decide
  have hdots : Undotted (Expr.boundNames (.leaf .identifier "x" default)) := by
    intro name hname
    rw [List.mem_singleton.mp hname]
    decide
  have heval : ((machine 1).eval (.scope ⟨0⟩) (operand [newValue] 0) frozenStore).Moves
      (Store.BindsOnly ⟨0⟩ []) frozenStore :=
    refl_of (Store.BindsOnly ⟨0⟩ []) frozenStore
  obtain ⟨-, hrefused, -⟩ := definition_spec (.inl rfl) frozenStore_readOnly heval hvars hdots
  exact hrefused "x" (List.mem_singleton_self _) default rfl rfl

/-- Other targets give the name another value: a pattern, a text, a key, and a path of properties
that leads to the variables. -/
theorem definition_unguarded :
    ReadOnlyNames frozenStore ⟨0⟩ ["x"] ∧ frozenStore.binding ⟨0⟩ "x" = some (.int 1) ∧
    (machine 1).eval (.scope ⟨0⟩) newValue frozenStore = .done (.str "a") frozenStore ∧
    ∀ target ∈ [.group .array [.leaf .identifier "x" default] default, .leaf .string "x" default,
        .leaf .key "x" default, .leaf .identifier "f.scope.vars.x" default],
      ∃ v t, run (machine 1) .define (.scope ⟨0⟩) [.node target, newValue] frozenStore =
        .done v t ∧ t.binding ⟨0⟩ "x" = some (.str "a") := by
  refine ⟨frozenStore_readOnly, rfl, rfl, fun target htarget => ?_⟩
  simp only [List.mem_cons, List.not_mem_nil, or_false] at htarget
  rcases htarget with rfl | rfl | rfl | rfl <;> exact ⟨_, _, rfl, rfl⟩

end Form

end Lisplet
