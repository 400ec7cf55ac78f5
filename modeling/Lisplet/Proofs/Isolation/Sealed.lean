import Lisplet.Proofs.Isolation.Parts
import Lisplet.Proofs.Store.Tables
import Lisplet.Script

/-!
# Sealed stores

A store is sealed if the core scope is as it was made, everything else that the store holds is
confined, and the denylist has the names of the two slots that tell a scope what is around it and
which names are read-only in it. The scope around a scope is older than the scope itself, or the
core scope. Each way to change a store keeps it sealed if what is written is confined.

A store extends another one if all scopes of the other one are still there with the same scope
around them and the same read-only names.
-/

namespace Lisplet

/-- The variables of the core scope as they were made. -/
def coreDict : Dict := Dict.ofTexts coreVars

/-- The core scope as it was made. -/
def coreRecord : Scope := ⟨.dict ⟨0⟩, .set 1 coreDict.keys, .nil⟩

/-- What may stand around scope number `i`: the core scope, or a value that is confined to older
scopes. -/
def Value.Outer (i : Nat) (v : Value) : Prop := v = .scope coreScope ∨ v.Confined i

/-- The values inside what a host function does are confined. -/
def FunctionCode.Confined (n : Nat) : FunctionCode → Prop
  | .adapter target scope => target.Confined n ∧ scope.Confined n
  | .bound _ first named => first.Confined n ∧ named.index ≠ 0
  | _ => True

theorem FunctionCode.Confined.mono {n m : Nat} {code : FunctionCode} (hc : code.Confined n)
    (h : n ≤ m) : code.Confined m := by
  cases code with
  | adapter target scope => exact ⟨hc.1.mono h, hc.2.mono h⟩
  | bound method first named => exact ⟨hc.1.mono h, hc.2⟩
  | _ => trivial

/-- A closure's slots are confined. -/
def Closure.Confined (n : Nat) (c : Closure) : Prop :=
  c.params.Confined n ∧ c.body.Confined n ∧ c.scope.Confined n

namespace Store

/-- The core scope is as it was made, and nothing else leads to it. -/
structure Sealed (s : Store) : Prop where
  parent_denied : "parent" ∈ s.denylist
  readOnly_denied : "read_only" ∈ s.denylist
  scopes_pos : 0 < s.scopes.size
  dicts_pos : 0 < s.dicts.size
  core : s.scope coreScope = coreRecord
  coreVars : s.dict ⟨0⟩ = coreDict
  scopes : ∀ r : ScopeRef, r.index ≠ 0 → r.index < s.scopes.size →
    (s.scope r).vars.Confined s.scopes.size ∧ (s.scope r).readOnly.Confined s.scopes.size ∧
      (s.scope r).parent.Outer r.index
  lists : ∀ r, AllConfined s.scopes.size (s.list r).toList
  dicts : ∀ r, (s.dict r).Confined s.scopes.size
  closures : ∀ r c, s.closure? r = some c → c.Confined s.scopes.size
  objects : ∀ r, Attributes.Confined s.scopes.size (s.object r)
  functions : ∀ r cell, s.function? r = some cell →
    Attributes.Confined s.scopes.size cell.attributes ∧ cell.code.Confined s.scopes.size
  iterators : ∀ r, AllConfined s.scopes.size (s.iterator r)
  kinds : ∀ k, Attributes.Confined s.scopes.size (s.kindAttributesOf k)
  formNames : ∀ f v, s.formNames.lookup f = some v → v.Confined s.scopes.size
  formBodies : ∀ f v, s.formBodies.lookup f = some v → v.Confined s.scopes.size

/-- All scopes of the first store are in the second one, with the same scope around them and the
same read-only names. -/
structure Extends (s t : Store) : Prop where
  size_le : s.scopes.size ≤ t.scopes.size
  parent : ∀ r : ScopeRef, r.index < s.scopes.size → (t.scope r).parent = (s.scope r).parent
  readOnly : ∀ r : ScopeRef, r.index < s.scopes.size → (t.scope r).readOnly = (s.scope r).readOnly

namespace Extends

variable {s t u : Store}

theorem refl (s : Store) : Extends s s := ⟨Nat.le_refl _, fun _ _ => rfl, fun _ _ => rfl⟩

theorem trans (h : Extends s t) (h' : Extends t u) : Extends s u := by
  have hle := h.size_le
  refine ⟨Nat.le_trans hle h'.size_le, fun r hr => ?_, fun r hr => ?_⟩
  · rw [h'.parent r (by omega), h.parent r hr]
  · rw [h'.readOnly r (by omega), h.readOnly r hr]

/-- A change that leaves the table of scopes alone. -/
theorem of_scopes_eq (h : t.scopes = s.scopes) : Extends s t := by
  refine ⟨Nat.le_of_eq (by rw [h]), fun r _ => ?_, fun r _ => ?_⟩
  · unfold Store.scope
    rw [h]
  · unfold Store.scope
    rw [h]

end Extends

namespace Sealed

variable {s : Store}

/-! ## Reading -/

theorem pointClass (h : Sealed s) : Attributes.Confined s.scopes.size s.pointClass := by
  unfold Store.pointClass
  cases hfind : s.functions.find? fun cell => cell.code.isPoint with
  | none =>
    intro a hmem
    cases hmem
  | some cell =>
    obtain ⟨i, hi, hcell⟩ := Array.mem_iff_getElem.mp (Array.mem_of_find?_eq_some hfind)
    have hget : s.function? ⟨.plain, i⟩ = some cell := by
      unfold Store.function?
      rw [Array.getElem?_eq_getElem hi, hcell]
    exact (h.functions _ _ hget).1

theorem formName (h : Sealed s) (f : Form) : (s.formName f).Confined s.scopes.size :=
  .getD (h.formNames f) trivial

theorem scope (h : Sealed s) {r : ScopeRef} (hr : (Value.scope r).Confined s.scopes.size) :
    (s.scope r).vars.Confined s.scopes.size ∧ (s.scope r).readOnly.Confined s.scopes.size ∧
      (s.scope r).parent.Outer r.index := h.scopes r hr.1 hr.2

theorem functionSlot? (h : Sealed s) {r : FunctionRef} {name : String} {w : Value}
    (hw : s.functionSlot? r name = some w) : w.Confined s.scopes.size := by
  unfold Store.functionSlot? at hw
  obtain ⟨cell, hcell, hslot⟩ := Option.bind_eq_some_iff.mp hw
  obtain ⟨hattrs, hcode⟩ := h.functions r cell hcell
  split at hslot
  · rename_i first named heq
    cases hslot
    rw [heq] at hcode
    exact hcode.1
  · rename_i first named heq
    cases hslot
    rw [heq] at hcode
    exact hcode.2
  · exact hattrs.get? hslot

theorem objectSlot? (h : Sealed s) {r : ObjectRef} {name : String} {w : Value}
    (hw : s.objectSlot? r name = some w) : w.Confined s.scopes.size := by
  unfold Store.objectSlot? at hw
  split at hw
  · rename_i v _ hget
    cases hw
    exact (h.objects r).get? hget
  · cases hw
  · split at hw
    · cases hw
    · exact h.pointClass.get? hw

/-- What a confined value has in a slot is confined, unless the slot is that for the scope around a
scope. -/
theorem slot? (h : Sealed s) {v w : Value} {name : String} (hv : v.Confined s.scopes.size)
    (hname : name ≠ "parent" ∨ ∀ r, v ≠ .scope r) (hw : s.slot? v name = some w) :
    w.Confined s.scopes.size := by
  cases v with
  | bool b =>
    simp only [Store.slot?, intSlot?] at hw
    split at hw <;> cases hw <;> trivial
  | int i =>
    simp only [Store.slot?, intSlot?] at hw
    split at hw <;> cases hw <;> trivial
  | float d =>
    simp only [Store.slot?, doubleSlot?] at hw
    split at hw <;> cases hw <;> trivial
  | kind k =>
    simp only [Store.slot?, kindSlot?] at hw
    split at hw
    · cases hw
      trivial
    · cases hw
      trivial
    · exact (h.kinds k).get? hw
  | node e => exact nodeSlot?_confined (Value.confined_node.mp hv) hw
  | closure r =>
    simp only [Store.slot?, closureSlot?] at hw
    split at hw
    · cases hw
      exact (h.closures r _ ‹_›).1
    · cases hw
      exact (h.closures r _ ‹_›).2.1
    · cases hw
      exact (h.closures r _ ‹_›).2.2
    · cases hw
  | form f =>
    simp only [Store.slot?] at hw
    split at hw
    · cases hw
      exact h.formName f
    · cases hw
  | function r => exact h.functionSlot? hw
  | method receiver m id =>
    cases m with
    | function r => exact h.functionSlot? hw
    | _ => cases hw
  | object r => exact h.objectSlot? hw
  | scope r =>
    simp only [Store.slot?, scopeSlot?] at hw
    split at hw
    · cases hw
      exact (h.scope hv).1
    · cases hw
      exact (h.scope hv).2.1
    · rcases hname with hname | hscope
      · contradiction
      · exact absurd rfl (hscope r)
    · cases hw
  | _ => cases hw

theorem elements (h : Sealed s) {v : Value} {items : List Value} (hv : v.Confined s.scopes.size)
    (hi : s.elements v = .ok items) : AllConfined s.scopes.size items := by
  unfold Store.elements at hi
  split at hi
  · cases hi
    exact h.lists _
  · cases hi
    exact Value.confined_tuple.mp hv
  · cases hi
    exact Value.confined_set.mp hv
  · cases hi
    exact .map fun _ _ => trivial
  · cases hi
    exact (h.dicts _).keys
  · cases hi
    exact h.iterators _
  · split at hi
    · cases hi
      exact .map fun _ _ => trivial
    · cases hi

/-! ## Writing -/

theorem setList (h : Sealed s) {items : Array Value} (r : ListRef)
    (hi : AllConfined s.scopes.size items.toList) : Sealed (s.setList r items) := by
  refine { h with lists := fun r' => ?_ }
  show AllConfined _ ((s.lists.setIfInBounds r.index items).getD r'.index #[]).toList
  rw [getD_setIfInBounds]
  split
  · exact hi
  · exact h.lists r'

theorem setDict (h : Sealed s) {d : Dict} {r : DictRef} (hr : r.index ≠ 0)
    (hd : d.Confined s.scopes.size) : Sealed (s.setDict r d) := by
  refine { h with dicts_pos := ?_, coreVars := ?_, dicts := fun r' => ?_ }
  · show 0 < (s.dicts.setIfInBounds r.index d).size
    rw [Array.size_setIfInBounds]
    exact h.dicts_pos
  · show (s.dicts.setIfInBounds r.index d).getD 0 .empty = _
    rw [getD_setIfInBounds, if_neg fun hzero => hr hzero.1]
    exact h.coreVars
  · show ((s.dicts.setIfInBounds r.index d).getD r'.index .empty).Confined _
    rw [getD_setIfInBounds]
    split
    · exact hd
    · exact h.dicts r'

theorem setClosure (h : Sealed s) {c : Closure} (r : ClosureRef) (hc : c.Confined s.scopes.size) :
    Sealed (s.setClosure r c) := by
  refine { h with closures := fun r' c' hc' => ?_ }
  have hget : (s.closures.setIfInBounds r.index c)[r'.index]? = some c' := hc'
  rw [Array.getElem?_setIfInBounds] at hget
  split at hget
  · split at hget
    · cases hget
      exact hc
    · cases hget
  · exact h.closures r' c' hget

theorem setObject (h : Sealed s) {attrs : Attributes} (r : ObjectRef)
    (ha : Attributes.Confined s.scopes.size attrs) : Sealed (s.setObject r attrs) := by
  refine { h with objects := fun r' => ?_ }
  show Attributes.Confined _ ((s.objects.setIfInBounds r.index attrs).getD r'.index [])
  rw [getD_setIfInBounds]
  split
  · exact ha
  · exact h.objects r'

theorem setFunctionAttribute (h : Sealed s) {name : String} {v : Value} (r : FunctionRef)
    (hname : name ≠ "parent") (hv : v.Confined s.scopes.size) :
    Sealed (s.setFunctionAttribute r name v) := by
  refine { h with functions := fun r' cell hcell => ?_ }
  have hget : (s.functions.modify r.index _)[r'.index]? = some cell := hcell
  rw [Array.getElem?_modify] at hget
  split at hget
  · obtain ⟨old, hold, rfl⟩ := Option.map_eq_some_iff.mp hget
    obtain ⟨hattrs, hcode⟩ := h.functions r' old hold
    exact ⟨hattrs.set hname hv, hcode⟩
  · exact h.functions r' cell hget

theorem setIterator (h : Sealed s) {items : List Value} (r : IteratorRef)
    (hi : AllConfined s.scopes.size items) : Sealed (s.setIterator r items) := by
  refine { h with iterators := fun r' => ?_ }
  show AllConfined _ ((s.iterators.setIfInBounds r.index items).getD r'.index [])
  rw [getD_setIfInBounds]
  split
  · exact hi
  · exact h.iterators r'

theorem setKindAttributes (h : Sealed s) {attrs : Attributes} (k : NodeKind)
    (ha : Attributes.Confined s.scopes.size attrs) :
    Sealed { s with kindAttributes := (k, attrs) :: s.kindAttributes } := by
  refine { h with kinds := fun k' => ?_ }
  show Attributes.Confined _ ((((k, attrs) :: s.kindAttributes).lookup k').getD [])
  rw [List.lookup_cons]
  split
  · exact ha
  · exact h.kinds k'

theorem setFormName (h : Sealed s) {v : Value} (f : Form) (hv : v.Confined s.scopes.size) :
    Sealed { s with formNames := (f, v) :: s.formNames } := by
  refine { h with formNames := fun f' w hw => ?_ }
  have hlookup : ((f, v) :: s.formNames).lookup f' = some w := hw
  rw [List.lookup_cons] at hlookup
  split at hlookup
  · cases hlookup
    exact hv
  · exact h.formNames f' w hlookup

theorem setFormBody (h : Sealed s) {v : Value} (f : Form) (hv : v.Confined s.scopes.size) :
    Sealed { s with formBodies := (f, v) :: s.formBodies } := by
  refine { h with formBodies := fun f' w hw => ?_ }
  have hlookup : ((f, v) :: s.formBodies).lookup f' = some w := hw
  rw [List.lookup_cons] at hlookup
  split at hlookup
  · cases hlookup
    exact hv
  · exact h.formBodies f' w hlookup

/-- Remembering an error touches nothing that a script can get hold of. -/
theorem keep (h : Sealed s) (f : Failure) : Sealed (s.keep f) ∧ Extends s (s.keep f) := by
  unfold Store.keep
  split
  · exact ⟨{ h with }, .of_scopes_eq rfl⟩
  · exact ⟨h, .refl s⟩

/-- Another table of scopes, which is at least as long. -/
theorem withScopes (h : Sealed s) {scopes : Array Scope} (hle : s.scopes.size ≤ scopes.size)
    (hcore : scopes.getD 0 default = coreRecord)
    (hscopes : ∀ i, i ≠ 0 → i < scopes.size →
      (scopes.getD i default).vars.Confined scopes.size ∧
        (scopes.getD i default).readOnly.Confined scopes.size ∧
        (scopes.getD i default).parent.Outer i) :
    Sealed { s with scopes := scopes } where
  parent_denied := h.parent_denied
  readOnly_denied := h.readOnly_denied
  scopes_pos := Nat.lt_of_lt_of_le h.scopes_pos hle
  dicts_pos := h.dicts_pos
  core := hcore
  coreVars := h.coreVars
  scopes := fun r => hscopes r.index
  lists := fun r => (h.lists r).mono hle
  dicts := fun r => (h.dicts r).mono hle
  closures := fun r c hc =>
    let hconfined := h.closures r c hc
    ⟨hconfined.1.mono hle, hconfined.2.1.mono hle, hconfined.2.2.mono hle⟩
  objects := fun r => (h.objects r).mono hle
  functions := fun r cell hcell =>
    let hconfined := h.functions r cell hcell
    ⟨hconfined.1.mono hle, hconfined.2.mono hle⟩
  iterators := fun r => (h.iterators r).mono hle
  kinds := fun k => (h.kinds k).mono hle
  formNames := fun f v hv => (h.formNames f v hv).mono hle
  formBodies := fun f v hv => (h.formBodies f v hv).mono hle

/-- Other variables for a scope that is not the core scope. -/
theorem setVars (h : Sealed s) {v : Value} {r : ScopeRef} (hr : r.index ≠ 0)
    (hv : v.Confined s.scopes.size) :
    Sealed (s.setScope r { s.scope r with vars := v }) := by
  have hsize : (s.scopes.setIfInBounds r.index { s.scope r with vars := v }).size =
      s.scopes.size := Array.size_setIfInBounds
  refine h.withScopes (Nat.le_of_eq hsize.symm) ?_ fun i hi hlt => ?_
  · rw [getD_setIfInBounds, if_neg fun hzero => hr hzero.1]
    exact h.core
  · rw [hsize] at hlt ⊢
    have hold := h.scopes ⟨i⟩ hi hlt
    rw [getD_setIfInBounds]
    by_cases hri : r.index = i ∧ i < s.scopes.size
    · rw [if_pos hri]
      obtain ⟨rfl, _⟩ := hri
      exact ⟨hv, hold.2⟩
    · rw [if_neg hri]
      exact hold

theorem extends_setVars (s : Store) (r : ScopeRef) (v : Value) :
    Extends s (s.setScope r { s.scope r with vars := v }) := by
  have hsame : ∀ r' : ScopeRef,
      ((s.setScope r { s.scope r with vars := v }).scope r').parent = (s.scope r').parent ∧
        ((s.setScope r { s.scope r with vars := v }).scope r').readOnly = (s.scope r').readOnly := by
    intro r'
    show ((s.scopes.setIfInBounds r.index { s.scope r with vars := v }).getD r'.index default).parent
        = _ ∧ ((s.scopes.setIfInBounds r.index { s.scope r with vars := v }).getD r'.index
        default).readOnly = _
    rw [getD_setIfInBounds]
    split
    · rename_i hri
      have hr : r = r' := congrArg ScopeRef.mk hri.1
      subst hr
      exact ⟨rfl, rfl⟩
    · exact ⟨rfl, rfl⟩
  refine ⟨Nat.le_of_eq ?_, fun r' _ => (hsame r').1, fun r' _ => (hsame r').2⟩
  exact Array.size_setIfInBounds.symm

/-! ## Making -/

theorem addList (h : Sealed s) {items : Array Value} (hi : AllConfined s.scopes.size items.toList) :
    Sealed (s.addList items).2 := by
  refine { h with lists := fun r => ?_ }
  show AllConfined _ ((s.lists.push items).getD r.index #[]).toList
  rw [getD_push]
  split
  · exact hi
  · exact h.lists r

theorem addDict (h : Sealed s) {d : Dict} (hd : d.Confined s.scopes.size) :
    Sealed (s.addDict d).2 := by
  refine { h with dicts_pos := ?_, coreVars := ?_, dicts := fun r => ?_ }
  · show 0 < (s.dicts.push d).size
    rw [Array.size_push]
    omega
  · show (s.dicts.push d).getD 0 .empty = _
    rw [getD_push, if_neg (Nat.ne_of_lt h.dicts_pos)]
    exact h.coreVars
  · show ((s.dicts.push d).getD r.index .empty).Confined _
    rw [getD_push]
    split
    · exact hd
    · exact h.dicts r

/-- A new dictionary is not that of the core scope. -/
theorem addDict_ref (h : Sealed s) (d : Dict) : (s.addDict d).1.index ≠ 0 :=
  Nat.ne_of_gt h.dicts_pos

theorem addClosure (h : Sealed s) {c : Closure} (hc : c.Confined s.scopes.size) :
    Sealed (s.addClosure c).2 := by
  refine { h with closures := fun r c' hc' => ?_ }
  have hget : (s.closures.push c)[r.index]? = some c' := hc'
  rw [Array.getElem?_push] at hget
  split at hget
  · cases hget
    exact hc
  · exact h.closures r c' hget

theorem addObject (h : Sealed s) {attrs : Attributes} (cls : ObjectClass)
    (ha : Attributes.Confined s.scopes.size attrs) : Sealed (s.addObject cls attrs).2 := by
  refine { h with objects := fun r => ?_ }
  show Attributes.Confined _ ((s.objects.push attrs).getD r.index [])
  rw [getD_push]
  split
  · exact ha
  · exact h.objects r

theorem addFunction (h : Sealed s) {code : FunctionCode} (hc : code.Confined s.scopes.size) :
    Sealed (s.addFunction code).2 := by
  refine { h with functions := fun r cell hcell => ?_ }
  have hget : (s.functions.push ⟨code, []⟩)[r.index]? = some cell := hcell
  rw [Array.getElem?_push] at hget
  split at hget
  · cases hget
    refine ⟨fun a hmem => ?_, hc⟩
    cases hmem
  · exact h.functions r cell hget

theorem uniqueFunction (h : Sealed s) {code : FunctionCode} (hc : code.Confined s.scopes.size) :
    Sealed (s.uniqueFunction code).2 := by
  unfold Store.uniqueFunction
  split
  · exact h
  · exact h.addFunction hc

theorem addIterator (h : Sealed s) {items : List Value} (shape : IteratorShape)
    (hi : AllConfined s.scopes.size items) : Sealed (s.addIterator shape items).2 := by
  refine { h with iterators := fun r => ?_ }
  show AllConfined _ ((s.iterators.push items).getD r.index [])
  rw [getD_push]
  split
  · exact hi
  · exact h.iterators r

/-- A new scope with confined variables, with an older scope or the core scope around it. -/
theorem addScope (h : Sealed s) {vars : List (String × Value)} {parent : Value}
    (hvars : ∀ a ∈ vars, a.2.Confined s.scopes.size) (hparent : parent.Outer s.scopes.size) :
    Sealed (s.addScope vars parent).2 := by
  have hdict : (Dict.ofTexts vars).Confined s.scopes.size := Dict.confined_ofTexts hvars
  have hs := h.addDict hdict
  let sc : Scope := ⟨.dict ⟨s.dicts.size⟩, .set s.nextId (Dict.ofTexts vars).keys, parent⟩
  have hsize : (s.scopes.push sc).size = s.scopes.size + 1 := Array.size_push _
  have hsealed : Sealed { (s.addDict (Dict.ofTexts vars)).2 with scopes := s.scopes.push sc } := by
    refine hs.withScopes (by rw [hsize]; exact Nat.le_succ _) ?_ fun i hi hlt => ?_
    · rw [getD_push, if_neg (Nat.ne_of_lt h.scopes_pos)]
      exact h.core
    · rw [hsize] at hlt ⊢
      rw [getD_push]
      split
      · rename_i heq
        rw [heq]
        refine ⟨Nat.ne_of_gt h.dicts_pos, ?_, hparent⟩
        exact Value.confined_set.mpr (hdict.keys.mono (Nat.le_succ _))
      · have hold := h.scopes ⟨i⟩ hi (by show i < s.scopes.size; omega)
        exact ⟨hold.1.mono (Nat.le_succ _), hold.2.1.mono (Nat.le_succ _), hold.2.2⟩
  exact { hsealed with }

theorem extends_addScope (s : Store) (vars : List (String × Value)) (parent : Value) :
    Extends s (s.addScope vars parent).2 := by
  have hsame : ∀ r : ScopeRef, r.index < s.scopes.size →
      (s.addScope vars parent).2.scope r = s.scope r := by
    intro r hr
    show (s.scopes.push _).getD r.index default = s.scopes.getD r.index default
    rw [getD_push, if_neg (Nat.ne_of_lt hr)]
  refine ⟨?_, fun r hr => by rw [hsame r hr], fun r hr => by rw [hsame r hr]⟩
  show s.scopes.size ≤ (s.scopes.push _).size
  rw [Array.size_push]
  exact Nat.le_succ _

/-- A new scope is not the core scope and comes before those that are made later. -/
theorem addScope_ref (h : Sealed s) (vars : List (String × Value)) (parent : Value) :
    (Value.scope (s.addScope vars parent).1).Confined (s.addScope vars parent).2.scopes.size := by
  refine ⟨Nat.ne_of_gt h.scopes_pos, ?_⟩
  show s.scopes.size < (s.scopes.push _).size
  rw [Array.size_push]
  exact Nat.lt_succ_self _

end Sealed

end Store

end Lisplet
