import Lisplet.Proofs.Property.Mild

/-!
# Guarded paths

A key is forbidden if it is a text on the denylist or one with two leading underscores. A write
along a path looks at all keys before it reads anything, so a forbidden key anywhere makes it fail
at once; a read looks at each key when it comes to it, and gets no further than the first forbidden
one. Apart from forbidden keys only a withheld method of a text is refused.
-/

namespace Lisplet.Property

open Lisplet.Action

/-- The key is a text on the denylist, or one with two leading underscores. -/
def Forbidden (denylist : List String) (key : Value) : Prop :=
  ∃ name, key.text? = some name ∧ (name ∈ denylist ∨ ['_', '_'] <+: name.toList)

/-- The value is a text, and the key names one of its attributes that is no method on the list. -/
def Withheld (s : Store) (v key : Value) : Prop :=
  v.text?.isSome ∧ ∃ name, key.text? = some name ∧ TextMethod.ofName? name = none ∧
    ∃ t, hasAttribute v name s = .done true t

/-- A read along the path comes to a text and asks it for a withheld attribute. -/
def MeetsWithheld (s : Store) (v : Value) (path : List Value) : Prop :=
  ∃ before key after w t, path = before ++ key :: after ∧ getPath v before s = .done w t ∧
    Withheld t w key

/-! ## Guards -/

theorem guardName_eq (name : String) (s : Store) :
    guardName name s =
      if name ∈ s.denylist then .failed (.fresh (.forbidden name)) s else .done () s := by
  show (if s.denylist.contains name then raise (.forbidden name) else pure ()) s = _
  by_cases h : name ∈ s.denylist
  · simp only [List.contains_eq_mem, h, decide_true, if_true]
    rfl
  · simp only [List.contains_eq_mem, h, decide_false, Bool.false_eq_true, if_false]
    rfl

theorem guardValue_str (name : String) (s : Store) :
    guardValue (.str name) s =
      if name ∈ s.denylist then .failed (.fresh (.forbidden name)) s else .done () s :=
  guardName_eq name s

theorem isReserved_iff {name : String} : isReserved name = true ↔ ['_', '_'] <+: name.toList := by
  unfold isReserved
  rw [beq_iff_eq, List.prefix_iff_eq_take, List.length_cons, List.length_singleton, eq_comm]

theorem guardText_eq (name : String) (s : Store) :
    guardText name s =
      if name ∈ s.denylist ∨ ['_', '_'] <+: name.toList then .failed (.fresh (.forbidden name)) s
      else .done () s := by
  have hname := guardName_eq name s
  by_cases h : name ∈ s.denylist
  · rw [if_pos h] at hname
    rw [if_pos (.inl h)]
    exact bind_of_failed hname
  · rw [if_neg h] at hname
    refine (bind_of_done hname).trans ?_
    by_cases hr : ['_', '_'] <+: name.toList
    · rw [if_pos (isReserved_iff.mpr hr), if_pos (.inr hr)]
      rfl
    · rw [if_neg (mt isReserved_iff.mp hr), if_neg (not_or_intro h hr)]
      rfl

/-- A forbidden key is refused, and nothing has happened. -/
theorem guardKey_forbidden {key : Value} {s : Store} (h : Forbidden s.denylist key) :
    ∃ e, guardKey key s = .failed e s ∧ e.kind = .forbiddenAccess := by
  obtain ⟨name, hname, hforbidden⟩ := h
  refine ⟨.fresh (.forbidden name), ?_, rfl⟩
  unfold guardKey
  simp only [hname]
  rw [guardText_eq, if_pos hforbidden]

/-- A key that is not forbidden passes, and nothing has happened. -/
theorem guardKey_passes {key : Value} {s : Store} (h : ¬Forbidden s.denylist key) :
    guardKey key s = .done () s := by
  unfold guardKey
  cases hname : key.text? with
  | none => rfl
  | some name =>
    dsimp only
    rw [guardText_eq, if_neg fun hforbidden => h ⟨name, hname, hforbidden⟩]

/-- The guards of a path refuse it if one of its keys is forbidden. -/
theorem guardPath_forbidden {path : List Value} {s : Store}
    (h : ∃ key ∈ path, Forbidden s.denylist key) :
    ∃ e, path.forM guardKey s = .failed e s ∧ e.kind = .forbiddenAccess := by
  induction path with
  | nil =>
    obtain ⟨key, hmem, _⟩ := h
    cases hmem
  | cons first path ih =>
    by_cases hfirst : Forbidden s.denylist first
    · obtain ⟨e, he, hkind⟩ := guardKey_forbidden hfirst
      exact ⟨e, bind_of_failed he, hkind⟩
    · obtain ⟨key, hmem, hkey⟩ := h
      rcases List.mem_cons.mp hmem with rfl | hmem
      · exact absurd hkey hfirst
      · obtain ⟨e, he, hkind⟩ := ih ⟨key, hmem, hkey⟩
        exact ⟨e, (bind_of_done (guardKey_passes hfirst)).trans he, hkind⟩

/-- The guards of a path let it pass if none of its keys is forbidden. -/
theorem guardPath_passes {path : List Value} {s : Store}
    (h : ∀ key ∈ path, ¬Forbidden s.denylist key) : path.forM guardKey s = .done () s := by
  induction path with
  | nil => rfl
  | cons first path ih =>
    have hfirst := guardKey_passes (h first List.mem_cons_self)
    exact (bind_of_done hfirst).trans (ih fun key hmem => h key (List.mem_cons_of_mem _ hmem))

/-! ## Reading -/

/-- The guard of a read comes first. -/
theorem get_forbidden {v key : Value} {s : Store} (h : Forbidden s.denylist key) :
    ∃ e, get v key s = .failed e s ∧ e.kind = .forbiddenAccess := by
  obtain ⟨e, he, hkind⟩ := guardKey_forbidden h
  exact ⟨e, bind_of_failed he, hkind⟩

/-- The action is mild, except that it may refuse an attribute that a text withholds. -/
def MildUnlessWithheld (v key : Value) (a : Action Value) : Prop := ∀ s, match a s with
  | .done _ t => t.denylist = s.denylist
  | .failed e _ => e.kind = .forbiddenAccess → Withheld s v key
  | .exhausted => True

theorem mildUnlessWithheld_of_mild {a : Action Value} (v key : Value) (h : Mild a) :
    MildUnlessWithheld v key a := by
  intro s
  have hs := h s
  cases ha : a s with
  | done w t =>
    rw [ha] at hs
    exact hs
  | failed e t =>
    rw [ha] at hs
    exact fun he => absurd he hs.2
  | exhausted => trivial

theorem textMethod_mildUnlessWithheld {v : Value} (key : Value) (hv : v.text?.isSome) :
    MildUnlessWithheld v key (textMethod v key) := by
  unfold textMethod
  cases hname : key.text? with
  | none => exact mildUnlessWithheld_of_mild v key (.ret _)
  | some name =>
    dsimp only
    cases hmethod : TextMethod.ofName? name with
    | some m => exact mildUnlessWithheld_of_mild v key (member_mild v name)
    | none =>
      intro s
      have hs := hasAttribute_mild v name s
      simp only [Option.isSome_none, Bool.false_eq_true, if_false]
      rw [bind_apply]
      cases ha : hasAttribute v name s with
      | done found t =>
        rw [ha] at hs
        cases found with
        | true => exact fun _ => ⟨hv, name, hname, hmethod, t, ha⟩
        | false => exact hs
      | failed e t =>
        rw [ha] at hs
        exact fun he => absurd he hs.2
      | exhausted => trivial

theorem ofText_mildUnlessWithheld {v : Value} (text : String) (key : Value)
    (hv : v.text?.isSome) : MildUnlessWithheld v key (ofText v text key) := by
  intro s
  have hs := indexOf_mild key s
  unfold ofText
  rw [bind_apply]
  cases hindex : index? key with
  | ok index =>
    cases index with
    | some i => rfl
    | none =>
      have hrest : MildUnlessWithheld v key
          (if isLength key then pure (.int text.length) else textMethod v key) := by
        split
        · exact mildUnlessWithheld_of_mild v key (.ret _)
        · exact textMethod_mildUnlessWithheld key hv
      exact hrest s
  | error fault =>
    rw [hindex] at hs
    exact fun he => absurd he hs.2

/-- A key that is not forbidden is refused only where a text withholds what it names. -/
theorem get_of_not_forbidden {v key : Value} {s : Store} (h : ¬Forbidden s.denylist key) :
    match get v key s with
      | .done _ t => t.denylist = s.denylist
      | .failed e _ => e.kind = .forbiddenAccess → Withheld s v key
      | .exhausted => True := by
  have hguard := guardKey_passes h
  unfold get
  rw [bind_of_done hguard]
  cases v with
  | undefined | nil =>
    refine mildUnlessWithheld_of_mild _ key ?_ s
    refine (Keeps.shown key).bind fun _ => (Keeps.shown _).bind fun _ => .raise ?_
    simp [Fault.kind]
  | dict r =>
    refine mildUnlessWithheld_of_mild _ key ?_ s
    exact (Keeps.keyOf key).bind fun _ => (Keeps.gets _).bind fun _ => .ret _
  | list r =>
    refine mildUnlessWithheld_of_mild _ key ?_ s
    exact (Keeps.gets _).bind fun items => ofSequence_mild _ items key
  | tuple id items => exact mildUnlessWithheld_of_mild _ key (ofSequence_mild _ _ key) s
  | str text => exact ofText_mildUnlessWithheld text key rfl s
  | kind k => exact ofText_mildUnlessWithheld k.name key rfl s
  | _ => exact mildUnlessWithheld_of_mild _ key (attributeOf_mild _ key) s

/-- A read keeps the denylist. -/
theorem get_denylist {v key w : Value} {s t : Store} (h : get v key s = .done w t) :
    t.denylist = s.denylist := by
  by_cases hkey : Forbidden s.denylist key
  · obtain ⟨e, he, _⟩ := get_forbidden (v := v) hkey
    rw [he] at h
    cases h
  · have hs := get_of_not_forbidden (v := v) hkey
    rw [h] at hs
    exact hs

theorem getPath_cons (v key : Value) (path : List Value) :
    getPath v (key :: path) = get v key >>= fun w => getPath w path := rfl

/-- A read along a path gives no value if one of its keys is forbidden. -/
theorem getPath_forbidden {path : List Value} : ∀ {v : Value} {s : Store},
    (∃ key ∈ path, Forbidden s.denylist key) → ∀ w t, getPath v path s ≠ .done w t := by
  induction path with
  | nil =>
    rintro v s ⟨key, hmem, _⟩
    cases hmem
  | cons first path ih =>
    rintro v s ⟨key, hmem, hkey⟩ w t hdone
    rw [getPath_cons, bind_eq_done] at hdone
    obtain ⟨u, s', hfirst, hrest⟩ := hdone
    rcases List.mem_cons.mp hmem with rfl | hmem
    · obtain ⟨e, he, _⟩ := get_forbidden (v := v) hkey
      rw [he] at hfirst
      cases hfirst
    · rw [← get_denylist hfirst] at hkey
      exact ih ⟨key, hmem, hkey⟩ w t hrest

/-- A read along a path is refused only for a forbidden key or a withheld attribute of a text. -/
theorem getPath_refused {path : List Value} : ∀ {v : Value} {s t : Store} {e : Failure},
    getPath v path s = .failed e t → e.kind = .forbiddenAccess →
      (∃ key ∈ path, Forbidden s.denylist key) ∨ MeetsWithheld s v path := by
  induction path with
  | nil =>
    intro v s t e h
    cases h
  | cons first path ih =>
    intro v s t e h he
    by_cases hfirst : Forbidden s.denylist first
    · exact .inl ⟨first, List.mem_cons_self, hfirst⟩
    · have hget := get_of_not_forbidden (v := v) hfirst
      rw [getPath_cons, bind_eq_failed] at h
      rcases h with h | ⟨w, u, hdone, hrest⟩
      · rw [h] at hget
        exact .inr ⟨[], first, path, v, s, rfl, rfl, hget he⟩
      · have hkeep := get_denylist hdone
        rcases ih hrest he with ⟨key, hmem, hkey⟩ | ⟨before, key, after, w', t', hpath, hread, hheld⟩
        · exact .inl ⟨key, List.mem_cons_of_mem _ hmem, hkeep ▸ hkey⟩
        · refine .inr ⟨first :: before, key, after, w', t', by rw [hpath, List.cons_append], ?_, hheld⟩
          rw [getPath_cons, bind_of_done hdone]
          exact hread

/-! ## Writing -/

/-- A key that is not forbidden is not refused when it is written. -/
theorem set_of_not_forbidden {v key value : Value} {s t : Store} {e : Failure}
    (h : ¬Forbidden s.denylist key) (hset : set v key value s = .failed e t) :
    e.kind ≠ .forbiddenAccess := by
  have hguard := guardKey_passes h
  -- what follows the guard is mild, whatever is written to
  have hrest : ∀ a : Action Unit, Mild a → a s = .failed e t → e.kind ≠ .forbiddenAccess :=
    fun _ ha hfail => ha.not_forbidden hfail
  unfold set at hset
  rw [bind_of_done hguard] at hset
  cases v with
  | undefined | nil =>
    refine hrest _ ?_ hset
    refine (Keeps.shown key).bind fun _ => (Keeps.shown _).bind fun _ => .raise ?_
    simp [Fault.kind]
  | dict r =>
    refine hrest _ ?_ hset
    exact (Keeps.keyOf key).bind fun _ => (Keeps.gets _).bind fun _ => .update fun _ => rfl
  | list r =>
    refine hrest _ ?_ hset
    refine (indexOf_mild key).bind fun index => ?_
    cases index with
    | some i => exact setElement_mild r i value
    | none => exact setNamed_mild _ key value
  | _ => exact hrest _ (setNamed_mild _ key value) hset

theorem setPath_of_ne_nil {v value : Value} {path : List Value} (h : path ≠ []) :
    setPath v path value = (do
      path.forM guardKey
      let owner ← getPath v path.dropLast
      set owner (path.getLast h) value
      return value) := by
  unfold setPath
  rw [List.getLast?_eq_some_getLast h]

/-- A write along a path is refused before it has done anything if one of its keys is forbidden. -/
theorem setPath_forbidden (v value : Value) {path : List Value} {s : Store}
    (h : ∃ key ∈ path, Forbidden s.denylist key) :
    ∃ e, setPath v path value s = .failed e s ∧ e.kind = .forbiddenAccess := by
  obtain ⟨e, he, hkind⟩ := guardPath_forbidden h
  have hne : path ≠ [] := by
    rintro rfl
    obtain ⟨key, hmem, _⟩ := h
    cases hmem
  rw [setPath_of_ne_nil hne]
  exact ⟨e, bind_of_failed he, hkind⟩

theorem getPath_denylist {path : List Value} : ∀ {v w : Value} {s t : Store},
    getPath v path s = .done w t → t.denylist = s.denylist := by
  induction path with
  | nil =>
    intro v w s t h
    cases h
    rfl
  | cons first path ih =>
    intro v w s t h
    rw [getPath_cons, bind_eq_done] at h
    obtain ⟨u, s', hfirst, hrest⟩ := h
    exact (ih hrest).trans (get_denylist hfirst)

theorem MeetsWithheld.of_dropLast {s : Store} {v : Value} {path : List Value} (hne : path ≠ [])
    (h : MeetsWithheld s v path.dropLast) : MeetsWithheld s v path := by
  obtain ⟨before, key, after, w, t, hpath, hread, hheld⟩ := h
  refine ⟨before, key, after ++ [path.getLast hne], w, t, ?_, hread, hheld⟩
  calc path = path.dropLast ++ [path.getLast hne] := (List.dropLast_concat_getLast hne).symm
    _ = before ++ key :: (after ++ [path.getLast hne]) := by rw [hpath]; simp

/-- A write along a path is refused only for a forbidden key or a withheld attribute of a text. -/
theorem setPath_refused {v value : Value} {path : List Value} {s t : Store} {e : Failure}
    (h : setPath v path value s = .failed e t) (he : e.kind = .forbiddenAccess) :
    (∃ key ∈ path, Forbidden s.denylist key) ∨ MeetsWithheld s v path := by
  by_cases hkeys : ∃ key ∈ path, Forbidden s.denylist key
  · exact .inl hkeys
  · have hpass : ∀ key ∈ path, ¬Forbidden s.denylist key :=
      fun key hmem hkey => hkeys ⟨key, hmem, hkey⟩
    by_cases hne : path = []
    · subst hne
      cases h
      cases he
    · rw [setPath_of_ne_nil hne, bind_of_done (guardPath_passes hpass), bind_eq_failed] at h
      rcases h with h | ⟨owner, u, hread, hwrite⟩
      · rcases getPath_refused h he with ⟨key, hmem, hkey⟩ | hmeets
        · exact absurd hkey (hpass key (List.dropLast_subset path hmem))
        · exact .inr (hmeets.of_dropLast hne)
      · rw [bind_eq_failed] at hwrite
        rcases hwrite with hwrite | ⟨_, _, _, hret⟩
        · have hlast : ¬Forbidden u.denylist (path.getLast hne) := by
            rw [getPath_denylist hread]
            exact hpass _ (List.getLast_mem hne)
          exact absurd he (set_of_not_forbidden hlast hwrite)
        · cases hret

end Lisplet.Property
