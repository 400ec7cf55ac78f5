import Lisplet.Proofs.Value.Entries

/-!
# Updating dictionaries

A dictionary is distinct if no two of its entries have the same key; what is put into a distinct
dictionary leaves it distinct. Updates compose: a value that is put into an updated dictionary, or
another update of it, might as well have gone into the dictionary that it was updated with. So
updating step by step gives what one update with everything at once gives, in the same order, and
under a key stands the value of the last update that has one.
-/

namespace Lisplet.Dict

variable {entries : List Entry} {e f : Entry}

/-! ## Two entries -/

/-- An entry that replaces a value commutes with one under another key. -/
theorem insertEntry_comm (hne : f.hash ≠ e.hash) (hmem : e.hash ∈ entries.map (·.hash)) :
    insertEntry e (insertEntry f entries) = insertEntry f (insertEntry e entries) := by
  induction entries with
  | nil => cases hmem
  | cons g rest ih =>
    by_cases hg : g.hash = e.hash
    · simp [insertEntry, hg, Ne.symm hne]
    · by_cases hgf : g.hash = f.hash
      · simp [insertEntry, hgf, hne]
      · have hrest : e.hash ∈ rest.map (·.hash) := by
          rw [List.map_cons, List.mem_cons] at hmem
          rcases hmem with h | h
          · exact absurd h.symm hg
          · exact h
        simp [insertEntry, hg, hgf, ih hrest]

/-- Of two entries under one key the second one decides the value and the first one the place. -/
theorem insertEntry_twice (h : f.hash = e.hash) :
    insertEntry e (insertEntry f entries) = insertEntry { f with value := e.value } entries := by
  induction entries with
  | nil => simp [insertEntry, h]
  | cons g rest ih =>
    by_cases hg : g.hash = e.hash
    · simp [insertEntry, hg, h]
    · simp [insertEntry, hg, h, ih]

theorem mem_hash_insertEntry (e : Entry) (entries : List Entry) :
    e.hash ∈ (insertEntry e entries).map (·.hash) := by
  induction entries with
  | nil => simp [insertEntry]
  | cons g rest ih =>
    by_cases hg : g.hash = e.hash
    · simp [insertEntry, hg]
    · rw [insertEntry, if_neg (by simpa using hg), List.map_cons]
      exact List.mem_cons_of_mem _ ih

theorem hash_insertEntry (e : Entry) (entries : List Entry) :
    (insertEntry e entries).map (·.hash) =
      if e.hash ∈ entries.map (·.hash) then entries.map (·.hash)
      else entries.map (·.hash) ++ [e.hash] := by
  have h := congrArg (List.map Prod.fst) (map_key_insertEntry e entries)
  rw [List.map_map] at h
  refine h.trans ?_
  split <;> simp

/-! ## Distinct dictionaries -/

/-- No two entries have the same key. -/
def Distinct (d : Dict) : Prop := (d.entries.map (·.hash)).Nodup

theorem distinct_empty : empty.Distinct := List.nodup_nil

theorem Distinct.insert {d : Dict} (h : d.Distinct) (hash : Key) (key value : Value) :
    (d.insert hash key value).Distinct := by
  unfold Distinct
  have hhash := hash_insertEntry ⟨hash, key, value⟩ d.entries
  refine (congrArg List.Nodup hhash).mpr ?_
  split
  · exact h
  · next hnot =>
    rw [List.nodup_append]
    refine ⟨h, by simp, fun a ha b hb hab => hnot ?_⟩
    obtain rfl := List.mem_singleton.mp hb
    exact hab ▸ ha

theorem find?_of_mem (h : (entries.map (·.hash)).Nodup) (hmem : e ∈ entries) :
    entries.find? (·.hash == e.hash) = some e := by
  induction entries with
  | nil => cases hmem
  | cons f rest ih =>
    rw [List.map_cons, List.nodup_cons] at h
    rcases List.mem_cons.mp hmem with rfl | hmem
    · exact List.find?_cons_of_pos (by simp)
    · have hne : f.hash ≠ e.hash := fun heq => h.1 (List.mem_map.mpr ⟨e, hmem, heq.symm⟩)
      rw [List.find?_cons_of_neg (by simpa using hne)]
      exact ih h.2 hmem

/-- An entry of a distinct dictionary is found under its key. -/
theorem Distinct.get?_of_mem {d : Dict} (h : d.Distinct) (hmem : e ∈ d.entries) :
    d.get? e.hash = some e.value := by
  unfold get?
  rw [find?_of_mem h hmem]
  rfl

theorem update_eq (d other : Dict) :
    d.update other = ⟨other.entries.foldl (fun acc e => insertEntry e acc) d.entries⟩ := by
  have hfold : ∀ (es : List Entry) (d : Dict),
      es.foldl (fun acc e => acc.insert e.hash e.key e.value) d =
        ⟨es.foldl (fun acc e => insertEntry e acc) d.entries⟩ := by
    intro es
    induction es with
    | nil => exact fun d => rfl
    | cons e es ih => exact fun d => ih _
  exact hfold other.entries d

theorem Distinct.update {d : Dict} (h : d.Distinct) (other : Dict) : (d.update other).Distinct := by
  unfold Dict.update
  induction other.entries generalizing d with
  | nil => exact h
  | cons e es ih => exact ih (h.insert e.hash e.key e.value)

/-! ## Composing -/

/-- Putting an entry into what was updated with a list of entries. -/
theorem insertEntry_foldl (e : Entry) {es : List Entry} : ∀ {entries : List Entry},
    (es.map (·.hash)).Nodup →
    insertEntry e (es.foldl (fun acc f => insertEntry f acc) entries) =
      (insertEntry e es).foldl (fun acc f => insertEntry f acc) entries := by
  -- an entry that is there already can be put in before the others are
  have hearly : ∀ {es entries : List Entry}, e.hash ∉ es.map (·.hash) →
      e.hash ∈ entries.map (·.hash) →
      insertEntry e (es.foldl (fun acc f => insertEntry f acc) entries) =
        es.foldl (fun acc f => insertEntry f acc) (insertEntry e entries) := by
    intro es
    induction es with
    | nil => exact fun _ _ => rfl
    | cons f es ih =>
      intro entries hnot hmem
      rw [List.map_cons, List.mem_cons, not_or] at hnot
      have hmem' : e.hash ∈ (insertEntry f entries).map (·.hash) := by
        rw [hash_insertEntry]
        split
        · exact hmem
        · exact List.mem_append_left _ hmem
      rw [List.foldl_cons, List.foldl_cons, ih hnot.2 hmem', insertEntry_comm (Ne.symm hnot.1) hmem]
  induction es with
  | nil => exact fun _ => rfl
  | cons f es ih =>
    intro entries hnodup
    rw [List.map_cons, List.nodup_cons] at hnodup
    by_cases hf : f.hash = e.hash
    · have hmem : e.hash ∈ (insertEntry f entries).map (·.hash) :=
        hf ▸ mem_hash_insertEntry f entries
      rw [List.foldl_cons, hearly (hf ▸ hnodup.1) hmem, insertEntry_twice hf, insertEntry,
        if_pos (by simpa using hf), List.foldl_cons]
    · rw [List.foldl_cons, ih hnodup.2, insertEntry, if_neg (by simpa using hf), List.foldl_cons]

theorem insert_update {d a : Dict} (ha : a.Distinct) (hash : Key) (key value : Value) :
    (d.update a).insert hash key value = d.update (a.insert hash key value) := by
  rw [update_eq, update_eq]
  exact congrArg Dict.mk (insertEntry_foldl ⟨hash, key, value⟩ ha)

/-- Updating twice is updating once with both. -/
theorem update_update (d : Dict) {a : Dict} (ha : a.Distinct) (other : Dict) :
    (d.update a).update other = d.update (a.update other) := by
  have hfold : ∀ (es : List Entry) {a : Dict}, a.Distinct →
      es.foldl (fun acc e => acc.insert e.hash e.key e.value) (d.update a) =
        d.update (es.foldl (fun acc e => acc.insert e.hash e.key e.value) a) := by
    intro es
    induction es with
    | nil => exact fun _ => rfl
    | cons e es ih =>
      intro a ha
      rw [List.foldl_cons, List.foldl_cons, insert_update ha]
      exact ih (ha.insert _ _ _)
  exact hfold other.entries ha

theorem update_empty (d : Dict) : d.update .empty = d := rfl

theorem empty_update {d : Dict} (h : d.Distinct) : empty.update d = d := by
  have hfold : ∀ {es : List Entry}, (es.map (·.hash)).Nodup →
      es.foldl (fun acc e => insertEntry e acc) [] = es := by
    intro es
    induction es using List.reverseRecOn with
    | nil => exact fun _ => rfl
    | append_singleton es e ih =>
      intro hnodup
      rw [List.map_append, List.nodup_append] at hnodup
      obtain ⟨hes, -, hdisjoint⟩ := hnodup
      have hnot : e.hash ∉ es.map (·.hash) := fun hmem =>
        hdisjoint e.hash hmem e.hash (List.mem_singleton_self _) rfl
      rw [List.foldl_append, ih hes, List.foldl_cons, List.foldl_nil, insertEntry_of_not_mem hnot]
  rw [update_eq]
  exact congrArg Dict.mk (hfold h)

/-! ## What an update has under a key -/

theorem get?_update (d : Dict) {other : Dict} (h : other.Distinct) (hash : Key) :
    (d.update other).get? hash = (other.get? hash).or (d.get? hash) := by
  have hfold : ∀ (es : List Entry) (d : Dict), (es.map (·.hash)).Nodup →
      (es.foldl (fun acc e => acc.insert e.hash e.key e.value) d).get? hash =
        ((es.find? (·.hash == hash)).map (·.value)).or (d.get? hash) := by
    intro es
    induction es with
    | nil => exact fun d _ => rfl
    | cons e es ih =>
      intro d hnodup
      rw [List.map_cons, List.nodup_cons] at hnodup
      rw [List.foldl_cons, ih _ hnodup.2, get?_insert]
      by_cases he : e.hash = hash
      · -- no later entry has the same key
        have hnone : es.find? (·.hash == hash) = none := by
          rw [List.find?_eq_none]
          intro f hf hfe
          exact hnodup.1 (List.mem_map.mpr ⟨f, hf, (eq_of_beq hfe).trans he.symm⟩)
        rw [hnone, List.find?_cons_of_pos (by simpa using he), if_pos he.symm]
        rfl
      · rw [List.find?_cons_of_neg (by simpa using he), if_neg (Ne.symm he)]
  exact hfold other.entries d h

/-- Several dictionaries in one, each updating those before it. -/
def joined (ds : List Dict) : Dict := ds.foldl update empty

/-- Under a key stands the value of the last dictionary that has one. -/
theorem get?_joined {ds : List Dict} (h : ∀ d ∈ ds, d.Distinct) (hash : Key) :
    (joined ds).get? hash = ds.reverse.findSome? (·.get? hash) := by
  induction ds using List.reverseRecOn with
  | nil => rfl
  | append_singleton ds d ih =>
    have hlast := h d (List.mem_append_right _ (List.mem_singleton_self d))
    have hinit := ih fun a ha => h a (List.mem_append_left _ ha)
    have hjoined : joined (ds ++ [d]) = (joined ds).update d := by
      unfold joined
      rw [List.foldl_append, List.foldl_cons, List.foldl_nil]
    rw [hjoined, get?_update _ hlast, hinit, List.reverse_concat, List.findSome?_cons]
    cases d.get? hash <;> rfl

end Lisplet.Dict
