import Lisplet.Proofs.Property.Places
import Lisplet.Proofs.Store.Words
import Lisplet.Settings

/-!
# Names of written attributes

A write into a value that is no container goes to the attribute that the printed text of the key
names, while the guard has looked at the key itself, and only if it is a text. So the name that is
written is never a dunder, since the text of no other value begins with an underscore, and it is on
the denylist only if the key was no text; the names that are always forbidden cannot be written.

Main statement: `set_written_name`.
-/

namespace Lisplet

namespace Store

variable {s : Store}

/-- The names that are always forbidden are the printed texts of texts only. -/
theorem plain_not_alwaysForbidden {v : Value} {t : String} (hv : ∀ text, v ≠ .str text)
    (h : s.plain v = .ok t) : t ∉ Settings.alwaysForbidden := by
  have hforbidden : ∀ name ∈ Settings.alwaysForbidden, ¬Printed name := by decide
  exact fun hmem => hforbidden t hmem (plain_printed hv h)

/-! ## What a written attribute changes -/

/-- Everything that has attributes in the store has the same one of this name. -/
structure SameSlots (name : String) (s t : Store) : Prop where
  objects : ∀ r, (t.object r).get? name = (s.object r).get? name := by exact fun _ => rfl
  functions : ∀ r, t.functionSlot? r name = s.functionSlot? r name := by exact fun _ => rfl
  pointClass : t.pointClass.get? name = s.pointClass.get? name := by rfl
  kinds : ∀ k, t.kindSlot? k name = s.kindSlot? k name := by exact fun _ => rfl
  closures : ∀ r, t.closureSlot? r name = s.closureSlot? r name := by exact fun _ => rfl
  scopes : ∀ r, t.scopeSlot? r name = s.scopeSlot? r name := by exact fun _ => rfl
  forms : name = "name" → t.formNames = s.formNames := by exact fun _ => rfl

theorem SameSlots.slot? {name : String} {t : Store} (h : SameSlots name s t) (v : Value) :
    t.slot? v name = s.slot? v name := by
  cases v with
  | object r =>
    simp only [Store.slot?, Store.objectSlot?, h.objects, h.pointClass]
  | function r => exact h.functions r
  | method receiver m id =>
    cases m with
    | function r => exact h.functions r
    | _ => rfl
  | kind k => exact h.kinds k
  | closure r => exact h.closures r
  | scope r => exact h.scopes r
  | form f =>
    simp only [Store.slot?]
    split
    · next hname =>
      unfold Store.formName
      rw [h.forms (eq_of_beq hname)]
    · rfl
  | _ => rfl

/-- No attribute has changed but those of one name. -/
structure ChangesOnly (name : String) (s t : Store) : Prop where
  slots : ∀ v other, other ≠ name → t.slot? v other = s.slot? v other
  /-- What a form does is its attribute of this name. -/
  bodies : name ≠ "fn" → t.formBodies = s.formBodies

section Writes

variable {name : String} (value : Value)

theorem setObject_changesOnly (r : ObjectRef) :
    ChangesOnly name s (s.setObject r ((s.object r).set name value)) := by
  refine ⟨fun v other hother => SameSlots.slot? { objects := fun q => ?_ } v, fun _ => rfl⟩
  show ((s.objects.setIfInBounds r.index ((s.object r).set name value)).getD q.index []).get? other
    = (s.objects.getD q.index []).get? other
  rw [getD_setIfInBounds]
  by_cases hq : r.index = q.index ∧ q.index < s.objects.size
  · rw [if_pos hq, Property.get?_set, if_neg hother, ← hq.1]
    rfl
  · rw [if_neg hq]

/-- The attributes of the first cell that is the class of points. -/
def pointAttributes (cells : List FunctionCell) : Attributes :=
  ((cells.find? fun cell => cell.code.isPoint).map (·.attributes)).getD []

theorem pointClass_eq (s : Store) : s.pointClass = pointAttributes s.functions.toList := by
  unfold Store.pointClass pointAttributes
  rw [Array.find?_toList]

theorem pointAttributes_modify {other : String} (hother : other ≠ name) (cells : List FunctionCell)
    (i : Nat) :
    (pointAttributes (cells.modify i fun cell =>
      { cell with attributes := cell.attributes.set name value })).get? other =
      (pointAttributes cells).get? other := by
  unfold pointAttributes
  induction cells generalizing i with
  | nil => cases i <;> rfl
  | cons cell cells ih =>
    cases i with
    | zero =>
      rw [List.modify_zero_cons, List.find?_cons, List.find?_cons]
      dsimp only
      cases cell.code.isPoint with
      | true =>
        show (cell.attributes.set name value).get? other = cell.attributes.get? other
        rw [Property.get?_set, if_neg hother]
      | false => rfl
    | succ i =>
      rw [List.modify_succ_cons, List.find?_cons, List.find?_cons]
      cases cell.code.isPoint with
      | true => rfl
      | false => exact ih i

theorem setFunctionAttribute_changesOnly (r : FunctionRef) :
    ChangesOnly name s (s.setFunctionAttribute r name value) := by
  refine ⟨fun v other hother => SameSlots.slot? { functions := fun q => ?_, pointClass := ?_ } v,
    fun _ => rfl⟩
  · have hcell : (s.setFunctionAttribute r name value).function? q =
        (if r.index = q.index then fun cell : FunctionCell =>
          { cell with attributes := cell.attributes.set name value } else id) <$> s.function? q := by
      unfold function? setFunctionAttribute
      rw [Array.getElem?_modify]
      split <;> simp
    unfold functionSlot?
    rw [hcell]
    cases s.function? q with
    | none => rfl
    | some cell =>
      obtain ⟨code, attributes⟩ := cell
      split
      · have hget := Property.get?_set attributes name other value
        rw [if_neg hother] at hget
        simp only [Option.map_eq_map, Option.map_some, Option.bind_some]
        split
        · rfl
        · rfl
        · exact hget
      · rfl
  · rw [pointClass_eq, pointClass_eq, ← pointAttributes_modify value hother s.functions.toList r.index]
    congr 2
    exact Array.toList_modify

/-- What a closure has in a slot. -/
def closureField? (c : Closure) : String → Option Value
  | "params" => some c.params
  | "body" => some c.body
  | "scope" => some c.scope
  | _ => none

theorem closureSlot?_eq (r : ClosureRef) (name : String) :
    s.closureSlot? r name = (s.closure? r).bind (closureField? · name) := by
  unfold closureSlot? closureField?
  cases s.closure? r with
  | none => rfl
  | some c =>
    rw [Option.bind_some]
    split <;> simp_all

theorem setClosure_changesOnly {r : ClosureRef} {c c' : Closure} (hc : s.closure? r = some c)
    (hsame : ∀ other ≠ name, closureField? c' other = closureField? c other) :
    ChangesOnly name s (s.setClosure r c') := by
  refine ⟨fun v other hother => SameSlots.slot? { closures := fun q => ?_ } v, fun _ => rfl⟩
  rw [closureSlot?_eq, closureSlot?_eq]
  have hcell : (s.setClosure r c').closure? q = if r.index = q.index then some c' else s.closure? q := by
    have hlt : r.index < s.closures.size := (Array.getElem?_eq_some_iff.mp hc).1
    show (s.closures.setIfInBounds r.index c')[q.index]? = _
    rw [Array.getElem?_setIfInBounds, if_pos hlt]
    rfl
  rw [hcell]
  split
  · next hindex =>
    obtain rfl : r = q := by
      cases r
      cases q
      exact congrArg ClosureRef.mk hindex
    rw [hc, Option.bind_some, Option.bind_some, hsame other hother]
  · rfl

theorem refusal_ne_done {v : Value} {t : Store} : Property.refusal v name s ≠ .done () t := by
  intro h
  obtain ⟨found, u, -, h⟩ := Action.bind_eq_done.mp h
  cases found <;> cases h

theorem setClosureAttribute_changesOnly {r : ClosureRef} {c : Closure} {t : Store}
    (hc : s.closure? r = some c)
    (h : Property.setClosureAttribute r c name value s = .done () t) : ChangesOnly name s t := by
  unfold Property.setClosureAttribute at h
  split at h
  · cases h
    exact setClosure_changesOnly hc fun other hother => by unfold closureField?; split <;> simp_all
  · cases h
    exact setClosure_changesOnly hc fun other hother => by unfold closureField?; split <;> simp_all
  · cases h
    exact setClosure_changesOnly hc fun other hother => by unfold closureField?; split <;> simp_all
  · exact absurd h refusal_ne_done

/-- What a scope has in a slot. -/
def scopeField? (scope : Scope) : String → Option Value
  | "vars" => some scope.vars
  | "read_only" => some scope.readOnly
  | "parent" => some scope.parent
  | _ => none

theorem scopeSlot?_eq (r : ScopeRef) (name : String) :
    s.scopeSlot? r name = scopeField? (s.scope r) name :=
  rfl

theorem setScope_changesOnly (r : ScopeRef) {scope : Scope}
    (hsame : ∀ other ≠ name, scopeField? scope other = scopeField? (s.scope r) other) :
    ChangesOnly name s (s.setScope r scope) := by
  refine ⟨fun v other hother => SameSlots.slot? { scopes := fun q => ?_ } v, fun _ => rfl⟩
  rw [scopeSlot?_eq, scopeSlot?_eq]
  show scopeField? ((s.scopes.setIfInBounds r.index scope).getD q.index default) other = _
  rw [getD_setIfInBounds]
  split
  · next hindex =>
    obtain rfl : r = q := by
      cases r
      cases q
      exact congrArg ScopeRef.mk hindex.1
    exact hsame other hother
  · rfl

theorem setScopeAttribute_changesOnly {r : ScopeRef} {t : Store}
    (h : Property.setScopeAttribute r name value s = .done () t) : ChangesOnly name s t := by
  obtain ⟨scope, u, hread, h⟩ := Action.bind_eq_done.mp h
  cases hread
  dsimp only at h
  split at h
  · cases h
    exact setScope_changesOnly r fun other hother => by unfold scopeField?; split <;> simp_all
  · cases h
    exact setScope_changesOnly r fun other hother => by unfold scopeField?; split <;> simp_all
  · cases h
    exact setScope_changesOnly r fun other hother => by unfold scopeField?; split <;> simp_all
  · exact absurd h refusal_ne_done

theorem setKindAttribute_changesOnly {k : NodeKind} {t : Store}
    (h : Property.setKindAttribute k name value s = .done () t) : ChangesOnly name s t := by
  unfold Property.setKindAttribute at h
  split at h
  · cases h
  · cases h
    refine ⟨fun v other hother => SameSlots.slot? { kinds := fun j => ?_ } v, fun _ => rfl⟩
    unfold kindSlot?
    split
    · rfl
    · rfl
    · unfold kindAttributesOf
      rw [List.lookup_cons]
      by_cases hj : j = k
      · subst hj
        rw [beq_self_eq_true]
        show ((s.kindAttributesOf j).set name value).get? other = _
        rw [Property.get?_set, if_neg hother]
        rfl
      · rw [beq_eq_false_iff_ne.mpr hj]

/-- A write of an attribute changes no attribute of another name. -/
theorem setAttribute_changesOnly {v : Value} {t : Store}
    (h : Property.setAttribute v name value s = .done () t) : ChangesOnly name s t := by
  cases v with
  | object r =>
    cases h
    exact setObject_changesOnly value r
  | function r =>
    rcases Action.ite_eq_done.mp h with ⟨-, h⟩ | ⟨-, h⟩
    · cases h
    · cases h
      exact setFunctionAttribute_changesOnly value r
  | closure r =>
    obtain ⟨c, u, hread, h⟩ := Action.bind_eq_done.mp h
    cases hread
    dsimp only at h
    cases hc : s.closure? r with
    | some c =>
      rw [hc] at h
      exact setClosureAttribute_changesOnly value hc h
    | none =>
      rw [hc] at h
      exact absurd h refusal_ne_done
  | form f =>
    unfold Property.setAttribute at h
    dsimp only at h
    split at h
    · cases h
      exact ⟨fun v other hother => SameSlots.slot? { forms := fun hname => absurd hname hother } v,
        fun _ => rfl⟩
    · cases h
      exact ⟨fun v other _ => SameSlots.slot? {} v, fun hname => absurd rfl hname⟩
    · exact absurd h refusal_ne_done
  | scope r => exact setScopeAttribute_changesOnly value h
  | kind k => exact setKindAttribute_changesOnly value h
  | node e => cases h
  | method receiver m id => cases h
  | _ => exact absurd h refusal_ne_done

end Writes

end Store

namespace Property

open Lisplet.Action

variable {v key value : Value} {s t : Store}

/-- A value was written under the attribute that the printed text of a key names. The name is no
dunder. It is on the denylist only if the key is no text, which the guard has not looked at, and
then it is none of the names that are always forbidden. -/
structure WrittenName (v key value : Value) (s t : Store) (name : String) : Prop where
  text : s.plain key = .ok name
  write : setAttribute v name value s = .done () t
  others : s.ChangesOnly name t
  not_reserved : isReserved name = false
  denied : name ∈ s.denylist → (∀ text, key ≠ .str text) ∧ name ∉ Settings.alwaysForbidden

theorem setNamed_of_set (hdict : ∀ r, v ≠ .dict r) (hlist : ∀ r, v ≠ .list r)
    (h : set v key value s = .done () t) : setNamed v key value s = .done () t := by
  have hguard := guardKey_passes (not_forbidden_of_set h)
  unfold set at h
  rw [bind_of_done hguard] at h
  cases v with
  | dict r => exact absurd rfl (hdict r)
  | list r => exact absurd rfl (hlist r)
  | undefined | nil =>
    obtain ⟨_, _, -, h⟩ := bind_eq_done.mp h
    obtain ⟨_, _, -, h⟩ := bind_eq_done.mp h
    cases h
  | _ => exact h

/-- A store with a host object, where scripts may not touch the name that is the text of `true`. -/
def denyingStore : Store := ((Store.empty ["True"]).addObject .plain []).2

end Property

end Lisplet
