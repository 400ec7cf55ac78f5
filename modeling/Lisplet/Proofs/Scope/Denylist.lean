import Lisplet.Proofs.Scope.Lookup
import Lisplet.Proofs.Text.Splitting
import Lisplet.Settings

/-!
# The denylist along paths and names

Where a key of a path is forbidden, a write along the path is refused before it has done anything
and a read along it gives no value. Where a segment of a dotted name is forbidden the same holds of
reads and writes in a scope, up to one point: a write looks up the variable of the name before it
guards the path below it, so that on a chain of scopes that was taken apart the error of that lookup
comes first. Nothing else is refused, apart from what a text withholds.
-/

namespace Lisplet

open Property (Forbidden MeetsWithheld getPath setPath)

/-! ## Dotted names -/

/-- The segments of a dotted name. -/
def nameSegments (name : String) : List String := (name.toList.splitOn '.').map String.ofList

/-- The variable of a dotted name is its first segment, and the path consists of the others. -/
theorem dottedName_eq {name first : String} {rest : List String}
    (h : nameSegments name = first :: rest) : dottedName name = (first, rest.map .str) := by
  have hsplit : Text.splitOn ['.'] none name.toList = name.toList.splitOn '.' :=
    Text.splitWithin_singleton '.' (Nat.lt_succ_self _)
  unfold nameSegments at h
  obtain ⟨a, b, hab, ha, hb⟩ := List.map_eq_cons_iff.mp h
  unfold dottedName
  rw [hsplit, hab, ← ha, ← hb]
  simp

theorem nameSegments_ne_nil (name : String) : nameSegments name ≠ [] := by
  simp [nameSegments]

/-- The first segment of the name is on the denylist, or a later one is on it or begins with two
underscores. -/
def ForbiddenName (denylist : List String) (name : String) : Prop :=
  ∃ first rest, nameSegments name = first :: rest ∧
    (first ∈ denylist ∨ ∃ segment ∈ rest, segment ∈ denylist ∨ ['_', '_'] <+: segment.toList)

/-- The same for the variable of the name and the path below it. -/
theorem forbiddenName_iff {denylist : List String} {name : String} :
    ForbiddenName denylist name ↔
      (dottedName name).1 ∈ denylist ∨ ∃ key ∈ (dottedName name).2, Forbidden denylist key := by
  obtain ⟨first, rest, hsegments⟩ := List.exists_cons_of_ne_nil (nameSegments_ne_nil name)
  rw [dottedName_eq hsegments]
  constructor
  · rintro ⟨first', rest', hsegments', h⟩
    rw [hsegments] at hsegments'
    cases hsegments'
    rcases h with h | ⟨segment, hmem, h⟩
    · exact .inl h
    · exact .inr ⟨.str segment, List.mem_map_of_mem hmem, segment, rfl, h⟩
  · rintro (h | ⟨key, hmem, text, htext, h⟩)
    · exact ⟨first, rest, hsegments, .inl h⟩
    · obtain ⟨segment, hsegment, rfl⟩ := List.mem_map.mp hmem
      cases htext
      exact ⟨first, rest, hsegments, .inr ⟨_, hsegment, h⟩⟩

namespace ScopeRef

variable {r : ScopeRef} {name : String} {value : Value} {s : Store}

theorem set_eq (r : ScopeRef) (name : String) (value : Value) :
    r.set name value = r.setAt (.str (dottedName name).1) (dottedName name).2 value := rfl

theorem get_eq (r : ScopeRef) (name : String) :
    r.get name = r.getAt (.str (dottedName name).1) (dottedName name).2 := rfl

/-! ## Writing -/

/-- A variable on the denylist is refused at once. -/
theorem setAt_forbidden {base : String} (r : ScopeRef) (path : List Value) (value : Value)
    (h : base ∈ s.denylist) :
    r.setAt (.str base) path value s = .failed (.fresh (.forbidden base)) s := by
  have hguard := Property.guardValue_str base s
  rw [if_pos h] at hguard
  exact Action.bind_of_failed hguard

/-- A write at a path looks up its variable and then writes along the path. -/
theorem setAt_path {base : String} {path : List Value} (r : ScopeRef) (value : Value)
    (h : base ∉ s.denylist) (hpath : path ≠ []) :
    r.setAt (.str base) path value s =
      (r.getVar (.str base) >>= fun v => setPath v path value) s := by
  have hguard := Property.guardValue_str base s
  rw [if_neg h] at hguard
  unfold setAt
  rw [Action.bind_of_done hguard, if_neg (by simpa using hpath)]

/-- Binding a bare name is not refused. -/
theorem bind_mild (r : ScopeRef) (name value : Value) : Action.Mild (r.bind name value) := by
  refine Action.Keeps.bind (.gets _) fun vars => ?_
  split
  · exact (Action.Keeps.keyOf name).bind fun _ => .update fun _ => rfl
  · exact .raise (by simp [Fault.kind])
  · exact .raise (by simp [Fault.kind])

/-- How a write of a forbidden name ends. -/
structure RefusesWrite (r : ScopeRef) (name : String) (value : Value) (s : Store) : Prop where
  /-- It gives no value. -/
  no_value : ∀ w t, r.set name value s ≠ .done w t
  /-- No binding and no container has changed. -/
  undisturbed : ∀ e t, r.set name value s = .failed e t → s.Undisturbed t
  /-- A variable on the denylist is refused at once. -/
  of_variable : (dottedName name).1 ∈ s.denylist →
    ∃ e, r.set name value s = .failed e s ∧ e.kind = .forbiddenAccess
  /-- Once the variable has been looked up the path is refused. -/
  of_found : ∀ w t, r.getVar (.str (dottedName name).1) s = .done w t →
    ∃ e, r.set name value s = .failed e t ∧ e.kind = .forbiddenAccess
  /-- If the lookup fails, so does the write, with the same error. -/
  of_lost : ∀ e t, r.getVar (.str (dottedName name).1) s = .failed e t →
    r.set name value s = .failed e t
  /-- On a chain of scopes it is refused, and nothing at all has changed. -/
  of_chain : ∀ n, s.Chain n (.scope r) →
    ∃ e, r.set name value s = .failed e s ∧ e.kind = .forbiddenAccess

/-- If the variable itself is forbidden, nothing is looked up. -/
theorem refusesWrite_of_variable (h : (dottedName name).1 ∈ s.denylist) :
    RefusesWrite r name value s := by
  have hset := setAt_forbidden r (dottedName name).2 value h
  rw [← set_eq] at hset
  have hget := getVar_forbidden (r := r) h
  refine ⟨?_, ?_, fun _ => ⟨_, hset, rfl⟩, ?_, ?_, fun _ _ => ⟨_, hset, rfl⟩⟩
  · intro w t hdone
    rw [hset] at hdone
    cases hdone
  · intro e t hfail
    rw [hset] at hfail
    cases hfail
    exact refl_of Store.Undisturbed s
  · intro w t hdone
    rw [hget] at hdone
    cases hdone
  · intro e t hfail
    rw [hget] at hfail
    cases hfail
    exact hset

/-- If the variable is not forbidden, a key of the path is, and the write ends with the lookup or
right after it. -/
theorem refusesWrite_of_path (h : (dottedName name).1 ∉ s.denylist)
    (hkeys : ∃ key ∈ (dottedName name).2, Forbidden s.denylist key) :
    RefusesWrite r name value s := by
  have hne : (dottedName name).2 ≠ [] := by
    intro hnil
    obtain ⟨key, hmem, _⟩ := hkeys
    rw [hnil] at hmem
    cases hmem
  have hset := setAt_path r value h hne
  rw [← set_eq] at hset
  have hkeep := getVar_undisturbed (r := r) h
  have hfound : ∀ w t, r.getVar (.str (dottedName name).1) s = .done w t →
      ∃ e, r.set name value s = .failed e t ∧ e.kind = .forbiddenAccess := by
    intro w t hdone
    rw [hdone] at hkeep
    obtain ⟨key, hmem, hkey⟩ := hkeys
    rw [← hkeep.denylist] at hkey
    obtain ⟨e, he, hkind⟩ := Property.setPath_forbidden w value ⟨key, hmem, hkey⟩
    exact ⟨e, hset.trans ((Action.bind_of_done hdone).trans he), hkind⟩
  have hlost : ∀ e t, r.getVar (.str (dottedName name).1) s = .failed e t →
      r.set name value s = .failed e t :=
    fun e t hfail => hset.trans (Action.bind_of_failed hfail)
  refine ⟨?_, ?_, fun hmem => absurd hmem h, hfound, hlost, ?_⟩
  · intro w t hdone
    rw [hset, Action.bind_eq_done] at hdone
    obtain ⟨v, u, hvar, hwrite⟩ := hdone
    obtain ⟨e, he, _⟩ := hfound v u hvar
    rw [hset, Action.bind_of_done hvar, hwrite] at he
    cases he
  · intro e t hfail
    rw [hset, Action.bind_eq_failed] at hfail
    rcases hfail with hvar | ⟨v, u, hvar, hwrite⟩
    · rw [hvar] at hkeep
      exact hkeep.1
    · obtain ⟨e', he', _⟩ := hfound v u hvar
      rw [hset, Action.bind_of_done hvar, hwrite] at he'
      cases he'
      rw [hvar] at hkeep
      exact hkeep
  · intro n hchain
    obtain ⟨w, hw⟩ := hchain.getVar h
    exact hfound w s hw

theorem refusesWrite (r : ScopeRef) (value : Value) (h : ForbiddenName s.denylist name) :
    RefusesWrite r name value s := by
  by_cases hvar : (dottedName name).1 ∈ s.denylist
  · exact refusesWrite_of_variable hvar
  · exact refusesWrite_of_path hvar ((forbiddenName_iff.mp h).resolve_left hvar)

/-- The variable of the name is looked up, and a read along the path below it comes to a text and
asks it for a withheld attribute. -/
def MeetsWithheldAt (r : ScopeRef) (name : String) (s : Store) : Prop :=
  ∃ u w t, s.Undisturbed u ∧ r.getVar (.str (dottedName name).1) u = .done w t ∧
    MeetsWithheld t w (dottedName name).2

/-- A write in a scope is refused only for a forbidden name or a withheld attribute of a text. -/
theorem set_refused {t : Store} {e : Failure} (h : r.set name value s = .failed e t)
    (he : e.kind = .forbiddenAccess) :
    ForbiddenName s.denylist name ∨ r.MeetsWithheldAt name s := by
  by_cases hvar : (dottedName name).1 ∈ s.denylist
  · exact .inl (forbiddenName_iff.mpr (.inl hvar))
  · by_cases hpath : (dottedName name).2 = []
    · -- a bare name is bound in the scope itself
      have hguard := Property.guardValue_str (dottedName name).1 s
      rw [if_neg hvar] at hguard
      rw [set_eq, hpath] at h
      unfold setAt at h
      rw [Action.bind_of_done hguard] at h
      have hmild : Action.Mild (do
          r.bind (.str (dottedName name).1) value
          return value) := (bind_mild r _ value).bind fun _ => .ret _
      exact absurd he (hmild.not_forbidden h)
    · have hkeep := getVar_undisturbed (r := r) hvar
      rw [set_eq, setAt_path r value hvar hpath, Action.bind_eq_failed] at h
      rcases h with hfail | ⟨w, u, hdone, hwrite⟩
      · rw [hfail] at hkeep
        exact absurd he hkeep.2
      · rw [hdone] at hkeep
        rcases Property.setPath_refused hwrite he with ⟨key, hmem, hkey⟩ | hmeets
        · exact .inl (forbiddenName_iff.mpr (.inr ⟨key, hmem, hkeep.denylist ▸ hkey⟩))
        · exact .inr ⟨s, w, u, refl_of Store.Undisturbed s, hdone, hmeets⟩

/-! ## Reading -/

theorem isDefined_looks (r : ScopeRef) (name : Value) : Action.Looks (r.isDefined name) :=
  (holder?_looks _ name).bind fun _ => .ret _

/-- A read below a variable that is not on the denylist: the variable is there, it is looked up, and
the path below it is read; or it is not there. -/
theorem getAt_eq {base : String} {path : List Value} (h : base ∉ s.denylist) :
    r.getAt (.str base) path s = (do
      if ← r.isDefined (.str base) then getPath (← r.getVar (.str base)) path
      else .raise (.undefined (← Action.compute (·.plain (.str base)))) : Action Value) s := by
  have hguard := Property.guardValue_str base s
  rw [if_neg h] at hguard
  exact Action.bind_of_done hguard

/-- A read of a forbidden name gives no value. -/
theorem get_forbidden (r : ScopeRef) (h : ForbiddenName s.denylist name) (w : Value) (t : Store) :
    r.get name s ≠ .done w t := by
  intro hdone
  rw [get_eq] at hdone
  by_cases hvar : (dottedName name).1 ∈ s.denylist
  · have hguard := Property.guardValue_str (dottedName name).1 s
    rw [if_pos hvar] at hguard
    have hfail : r.getAt (.str (dottedName name).1) (dottedName name).2 s = _ :=
      Action.bind_of_failed hguard
    rw [hfail] at hdone
    cases hdone
  · obtain ⟨key, hmem, hkey⟩ := (forbiddenName_iff.mp h).resolve_left hvar
    rw [getAt_eq hvar, Action.bind_eq_done] at hdone
    obtain ⟨found, u, hfound, hrest⟩ := hdone
    have hu := isDefined_looks r (.str (dottedName name).1) s
    rw [hfound] at hu
    cases found with
    | false =>
      rw [if_neg (by decide), Action.bind_eq_done] at hrest
      obtain ⟨_, _, _, hraise⟩ := hrest
      cases hraise
    | true =>
      rw [if_pos rfl, Action.bind_eq_done] at hrest
      obtain ⟨v, u', hv, hread⟩ := hrest
      have hvar' : (dottedName name).1 ∉ u.denylist := hu.denylist ▸ hvar
      have hu' := getVar_undisturbed (r := r) hvar'
      rw [hv] at hu'
      rw [← hu.denylist, ← hu'.denylist] at hkey
      exact Property.getPath_forbidden ⟨key, hmem, hkey⟩ w t hread

/-- A read in a scope is refused only for a forbidden name or a withheld attribute of a text. -/
theorem get_refused {t : Store} {e : Failure} (h : r.get name s = .failed e t)
    (he : e.kind = .forbiddenAccess) :
    ForbiddenName s.denylist name ∨ r.MeetsWithheldAt name s := by
  by_cases hvar : (dottedName name).1 ∈ s.denylist
  · exact .inl (forbiddenName_iff.mpr (.inl hvar))
  · rw [get_eq, getAt_eq hvar, Action.bind_eq_failed] at h
    have hu := isDefined_looks r (.str (dottedName name).1) s
    rcases h with hfail | ⟨found, u, hfound, hrest⟩
    · exact absurd he ((isDefined_looks r _).not_forbidden hfail)
    · rw [hfound] at hu
      cases found with
      | false =>
        have hmild : Action.Mild (do
            Action.raise (α := Value)
              (.undefined (← Action.compute (·.plain (.str (dottedName name).1))))) :=
          (Action.Keeps.plain _).bind fun _ => .raise (by simp [Fault.kind])
        exact absurd he (hmild.not_forbidden hrest)
      | true =>
        rw [if_pos rfl, Action.bind_eq_failed] at hrest
        have hvar' : (dottedName name).1 ∉ u.denylist := hu.denylist ▸ hvar
        have hu' := getVar_undisturbed (r := r) hvar'
        rcases hrest with hfail | ⟨w, u', hdone, hread⟩
        · rw [hfail] at hu'
          exact absurd he hu'.2
        · rw [hdone] at hu'
          rcases Property.getPath_refused hread he with ⟨key, hmem, hkey⟩ | hmeets
          · rw [hu'.denylist, hu.denylist] at hkey
            exact .inl (forbiddenName_iff.mpr (.inr ⟨key, hmem, hkey⟩))
          · exact .inr ⟨u, w, u', hu, hdone, hmeets⟩

end ScopeRef

/-! ## What the denylist enforces -/

/-- A store with one scope, in the place of whose outer scope a number was put. -/
def cutChain : Store := ((Store.empty Settings.alwaysForbidden).addScope [] (.int 5)).2

end Lisplet
