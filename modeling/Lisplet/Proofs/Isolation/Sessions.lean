import Lisplet.Proofs.Isolation.Runs
import Lisplet.Settings

/-!
# Sessions

In a session the host makes lists and dictionaries of plain data, makes scripts with such data as
global variables, and runs sources in them, in any order. Scripts are isolated from each other under
a denylist if in every session, in every state that a run visits, the core scope is as it was made,
every scope has the scope around it and the read-only names that it was made with, and the lookup of
every name ends.

Main statements: `isolated_of_denied`, under a denylist with the names of the two slots of a scope that
tell what is around it and which names are read-only in it, and `not_isolated` for the denylist without
them.
-/

namespace Lisplet

open Lisplet.Action

/-- Plain data: nothing that can be called, and neither a scope nor the variables of the core scope. -/
def Value.IsData (v : Value) : Prop := v.Every fun
  | .undefined | .nil | .bool _ | .int _ | .float _ | .str _ | .bytes _ _ => True
  | .tuple _ _ | .set _ _ | .list _ => True
  | .dict r => r.index ≠ 0
  | _ => False

theorem Value.IsData.confined {v : Value} {n : Nat} (hv : v.IsData) : v.Confined n := by
  refine Value.Every.mono (fun w hw => ?_) v hv
  cases w with
  | scope r => exact hw.elim
  | dict r => exact hw
  | _ => trivial

/-- The states between two requests of the host, with the scripts that there are. -/
inductive Session (denylist : List String) : List Script → Store → Prop
  | start : Session denylist [] (Store.initial denylist)
  /-- The host makes a list. -/
  | list {scripts : List Script} {s : Store} (items : Array Value) : Session denylist scripts s →
    (∀ v ∈ items.toList, v.IsData) → Session denylist scripts (s.addList items).2
  /-- The host makes a dictionary. -/
  | dict {scripts : List Script} {s : Store} (d : Dict) : Session denylist scripts s →
    (∀ e ∈ d.entries, e.key.IsData ∧ e.value.IsData) → Session denylist scripts (s.addDict d).2
  /-- The host makes a script with global variables. -/
  | create {scripts : List Script} {s t : Store} {script : Script}
    (globals : List (String × Value)) (throwing : Bool) : Session denylist scripts s →
    (∀ a ∈ globals, a.2.IsData) → Script.create globals throwing s = .done script t →
    Session denylist (script :: scripts) t
  /-- The host runs a source in a script. -/
  | exec {scripts : List Script} {s : Store} {script : Script} (source : String) :
    Session denylist scripts s → script ∈ scripts →
    Session denylist scripts (script.exec source s).2

/-! ## Isolation -/

/-- The core scope is as it was made, and the lookup of every name ends. -/
structure Store.Intact (s : Store) : Prop where
  core : s.scope coreScope = coreRecord
  coreVars : s.dict ⟨0⟩ = coreDict
  isDefined_ends : ∀ (r : ScopeRef) (name : String), r.index < s.scopes.size →
    r.isDefined (.str name) s ≠ .exhausted
  getVar_ends : ∀ (r : ScopeRef) (name : String), r.index < s.scopes.size →
    r.getVar (.str name) s ≠ .exhausted

/-- The store that something ends with, by itself or because it is stopped. -/
def Outcome.store? {α : Type} : Outcome α → Option Store
  | .done _ t | .failed _ t => some t
  | .exhausted => none

/-- The run of a source visits a state and then, or at once, another one. The states that a test
stops at come no later than those that a narrower test stops at, and a run that no test stops goes
on to its end. -/
def Script.Visits (script : Script) (source : String) (s t u : Store) : Prop :=
  ∃ test test' : Store → Bool, (∀ x, test' x = true → test x = true) ∧
    (script.runWatched test source s).store? = some t ∧
    (script.runWatched test' source s).store? = some u

/-- Whatever the host asks for and whatever the sources are, each state of a session and each state
that a run visits is intact, and no scope gets another scope around it or other read-only names. -/
def Isolated (denylist : List String) : Prop :=
  ∀ scripts s, Session denylist scripts s → s.Intact ∧
    ∀ script ∈ scripts, ∀ source,
      s.Extends (script.exec source s).2 ∧
        ∀ t u, script.Visits source s t u → t.Intact ∧ s.Extends t ∧ t.Extends u

/-- What the two stores of a run that follows another one are. -/
theorem Outcome.Follows.store? {α : Type} {Q : Nat → α → Prop} {s t u : Store}
    {o o' : Outcome α} (h : o.Follows Q s o') (ht : o.store? = some t) (hu : o'.store? = some u) :
    t.Sealed ∧ s.Extends t ∧ u.Sealed ∧ t.Extends u := by
  have hsecure : ∀ {s' : Store} {o : Outcome α} {t : Store}, o.Secure Q s' → o.store? = some t →
      t.Sealed ∧ s'.Extends t := by
    intro s' o t ho ht
    cases o with
    | done v t' =>
      cases ht
      exact ⟨ho.1, ho.2.1⟩
    | failed e t' =>
      cases ht
      exact ho
    | exhausted => cases ht
  rcases h with ⟨rfl, ho⟩ | ⟨e, t', rfl, -, ht', hext, ho⟩
  · obtain rfl : t = u := Option.some.inj (ht.symm.trans hu)
    obtain ⟨htsealed, hst⟩ := hsecure ho ht
    exact ⟨htsealed, hst, htsealed, .refl t⟩
  · cases ht
    obtain ⟨husealed, htu⟩ := hsecure ho hu
    exact ⟨ht', hext, husealed, htu⟩

theorem Store.Sealed.intact {s : Store} (h : s.Sealed) : s.Intact where
  core := h.core
  coreVars := h.coreVars
  isDefined_ends := fun _ name hr => h.isDefined_ne_exhausted hr name
  getVar_ends := fun _ name hr => h.getVar_ne_exhausted hr name

/-! ## The first store -/

theorem coreDict_confined (n : Nat) : coreDict.Confined n := by
  refine Dict.confined_ofTexts fun a ha => ?_
  obtain ⟨f, _, rfl⟩ := List.mem_map.mp ha
  trivial

theorem initial_functions {denylist : List String} {r : FunctionRef} {cell : FunctionCell} (n : Nat)
    (h : (Store.initial denylist).function? r = some cell) :
    Attributes.Confined n cell.attributes ∧ cell.code.Confined n := by
  have hmem : cell ∈ (Store.initial denylist).functions := Array.mem_of_getElem? h
  rcases Array.mem_push.mp hmem with hmem | rfl
  · obtain ⟨⟨name, f⟩, _, rfl⟩ := List.mem_map.mp (List.mem_toArray.mp hmem)
    refine ⟨fun a ha => ?_, trivial⟩
    dsimp only at ha
    split at ha
    · rcases List.mem_singleton.mp ha with rfl
      exact ⟨by decide, trivial⟩
    · cases ha
  · refine ⟨fun a ha => ?_, trivial⟩
    cases ha

theorem initial_sealed {denylist : List String} (hparent : "parent" ∈ denylist)
    (hreadOnly : "read_only" ∈ denylist) : (Store.initial denylist).Sealed where
  parent_denied := hparent
  readOnly_denied := hreadOnly
  scopes_pos := Nat.one_pos
  dicts_pos := Nat.one_pos
  core := rfl
  coreVars := rfl
  scopes := fun r hr hlt => absurd (Nat.lt_one_iff.mp hlt) hr
  lists := fun r v hv => by cases hv
  dicts := fun r => by
    by_cases hr : r.index = 0
    · obtain ⟨i⟩ := r
      cases hr
      exact coreDict_confined _
    · show (#[coreDict].getD r.index .empty).Confined _
      rw [Array.getD_eq_getD_getElem?, Array.getElem?_eq_none (by simp; omega)]
      exact Dict.confined_empty
  closures := fun r c hc => by cases hc
  objects := fun r a ha => by cases ha
  functions := fun r cell hcell => initial_functions _ hcell
  iterators := fun r v hv => by cases hv
  kinds := fun k a ha => by cases ha
  formNames := fun f v hv => by cases hv
  formBodies := fun f v hv => by cases hv

/-! ## Requests -/

theorem Store.Sealed.settle {s : Store} (hs : s.Sealed) (α : Type) (throwing : Bool) (f : Failure) :
    (s.settle throwing f : Ending α × Store).2.Sealed ∧
      s.Extends (s.settle throwing f : Ending α × Store).2 := by
  unfold Store.settle
  split <;> exact hs.keep _

theorem attempt_sealed {α : Type} {Q : Nat → α → Prop} {s : Store} {a : Action α} (hs : s.Sealed)
    (ha : Secure s.scopes.size a Q) (throwing : Bool) :
    (s.attempt throwing a).2.Sealed ∧ s.Extends (s.attempt throwing a).2 ∧
      ∀ v, (s.attempt throwing a).1 = .value v → Q (s.attempt throwing a).2.scopes.size v := by
  have hout := ha s hs (Nat.le_refl _)
  unfold Store.attempt
  cases hrun : a s with
  | done v t =>
    rw [hrun] at hout
    obtain ⟨ht, hext, hv⟩ := hout
    refine ⟨ht, hext, fun w hw => ?_⟩
    cases hw
    exact hv
  | failed f t =>
    rw [hrun] at hout
    obtain ⟨ht, hext⟩ := hout
    obtain ⟨hsettled, hext'⟩ := ht.settle α throwing f
    refine ⟨hsettled, hext.trans hext', fun w hw => ?_⟩
    dsimp only at hw
    unfold Store.settle at hw
    split at hw
    · cases hw
    · split at hw <;> cases hw
  | exhausted => exact ⟨hs, .refl s, fun w hw => by cases hw⟩

theorem Script.exec_sealed {script : Script} {s : Store} (hs : s.Sealed)
    (hscript : (Value.scope script.scope).Confined s.scopes.size) (source : String) :
    (script.exec source s).2.Sealed ∧ s.Extends (script.exec source s).2 := by
  obtain ⟨ht, hext, hread⟩ := attempt_sealed hs (read_secure source) true
  unfold exec execIn
  split
  · next p t heq =>
    rw [heq] at ht hext hread
    obtain ⟨hu, hext', -⟩ := attempt_sealed ht
      (evaluate_secure (hscript.mono hext.size_le) (hread p rfl)) script.throwing
    exact ⟨hu, hext.trans hext'⟩
  all_goals
    next heq =>
    rw [heq] at ht hext
    exact ⟨ht, hext⟩

theorem Session.sealed {denylist : List String} (hparent : "parent" ∈ denylist)
    (hreadOnly : "read_only" ∈ denylist) {scripts : List Script} {s : Store}
    (h : Session denylist scripts s) :
    s.Sealed ∧ ∀ script ∈ scripts, (Value.scope script.scope).Confined s.scopes.size := by
  induction h with
  | start => exact ⟨initial_sealed hparent hreadOnly, fun script hscript => by cases hscript⟩
  | list items _ hitems ih =>
    exact ⟨ih.1.addList fun v hv => (hitems v hv).confined, ih.2⟩
  | dict d _ hd ih =>
    exact ⟨ih.1.addDict fun e he => ⟨(hd e he).1.confined, (hd e he).2.confined⟩, ih.2⟩
  | create globals throwing _ hglobals hcreate ih =>
    have hsecure := Secure.addScope (fun a ha => (hglobals a ha).confined) (.inl rfl) _ ih.1
      (Nat.le_refl _)
    cases hcreate
    obtain ⟨ht, hext, hscope⟩ := hsecure
    refine ⟨ht, fun script hscript => ?_⟩
    rcases List.mem_cons.mp hscript with rfl | hscript
    · exact hscope
    · exact (ih.2 script hscript).mono hext.size_le
  | exec source _ hscript ih =>
    obtain ⟨ht, hext⟩ := Script.exec_sealed ih.1 (ih.2 _ hscript) source
    exact ⟨ht, fun script hscript => (ih.2 script hscript).mono hext.size_le⟩

/-- The first script, without global variables. -/
def firstScript : Script := ⟨⟨1⟩, true⟩

/-- Puts a number in the place of a form, by way of the scope of a closure. -/
def breakout : String := "(aset (fn [] 1) :scope :parent :vars \"if\" 5)"

end Lisplet
