import Lisplet.Value.Key
import Mathlib.Data.List.Induction

/-!
# Entries of dictionaries

What a dictionary has under a key after a value was put under the same key or another one, and in
which order its keys stand. A dictionary that was made from names and values has under each name the
value that was given last, and its keys stand in the order in which they were given first.
-/

namespace Lisplet.Dict

/-! ## Putting in one value -/

theorem find?_insertEntry (e : Entry) (hash : Key) (entries : List Entry) :
    ((insertEntry e entries).find? (·.hash == hash)).map (·.value) =
      if hash = e.hash then some e.value else (entries.find? (·.hash == hash)).map (·.value) := by
  induction entries with
  | nil =>
    by_cases h : hash = e.hash
    · simp [insertEntry, h]
    · simp [insertEntry, h, Ne.symm h]
  | cons f rest ih =>
    by_cases hf : f.hash = e.hash
    · by_cases h : hash = e.hash
      · simp [insertEntry, hf, h]
      · simp [insertEntry, hf, h, Ne.symm h]
    · by_cases hh : f.hash = hash
      · subst hh
        simp [insertEntry, hf]
      · simp [insertEntry, hf, hh, ih]

/-- The value under a key, after one was put under the same key or another one. -/
theorem get?_insert (d : Dict) (hash other : Key) (key value : Value) :
    (d.insert hash key value).get? other = if other = hash then some value else d.get? other :=
  find?_insertEntry ⟨hash, key, value⟩ other d.entries

/-- Putting in a value keeps the keys and their order, or adds a new key at the end. -/
theorem map_key_insertEntry (e : Entry) (entries : List Entry) :
    (insertEntry e entries).map (fun f => (f.hash, f.key)) =
      if e.hash ∈ entries.map (·.hash) then entries.map (fun f => (f.hash, f.key))
      else entries.map (fun f => (f.hash, f.key)) ++ [(e.hash, e.key)] := by
  induction entries with
  | nil => simp [insertEntry]
  | cons f rest ih =>
    by_cases hf : f.hash = e.hash
    · simp [insertEntry, hf]
    · by_cases hmem : e.hash ∈ rest.map (·.hash)
      · rw [if_pos hmem] at ih
        simp [insertEntry, hf, ih, hmem]
      · rw [if_neg hmem] at ih
        have hnot : e.hash ∉ (f :: rest).map (·.hash) := by
          rw [List.map_cons, List.mem_cons]
          rintro (h | h)
          · exact hf h.symm
          · exact hmem h
        rw [if_neg hnot]
        simp [insertEntry, hf, ih]

/-! ## Dictionaries made from names -/

theorem ofTexts_concat (items : List (String × Value)) (name : String) (value : Value) :
    ofTexts (items ++ [(name, value)]) = (ofTexts items).insertText name value := by
  simp [ofTexts, List.foldl_append]

theorem ofText_inj {a b : String} : Key.ofText a = Key.ofText b ↔ a = b := by
  simp [Key.ofText]

/-- Under each name stands the value that was given last. -/
theorem getText?_ofTexts (items : List (String × Value)) (name : String) :
    (ofTexts items).getText? name = items.reverse.lookup name := by
  induction items using List.reverseRecOn with
  | nil => rfl
  | append_singleton items item ih =>
    obtain ⟨n, v⟩ := item
    have hlookup : (items ++ [(n, v)]).reverse.lookup name =
        if name = n then some v else items.reverse.lookup name := by
      rw [List.reverse_append, List.reverse_singleton, List.singleton_append, List.lookup_cons]
      by_cases h : name = n
      · simp [h]
      · rw [beq_eq_false_iff_ne.mpr h, if_neg h]
    rw [ofTexts_concat, hlookup, ← ih]
    unfold getText? insertText
    rw [get?_insert]
    simp only [ofText_inj]

/-- The keys stand in the order in which they were given first. -/
theorem map_key_ofTexts (items : List (String × Value)) :
    (ofTexts items).entries.map (fun f => (f.hash, f.key)) =
      (items.map (·.1)).eraseDups.map fun name => (Key.ofText name, Value.str name) := by
  induction items using List.reverseRecOn with
  | nil => rfl
  | append_singleton items item ih =>
    obtain ⟨n, v⟩ := item
    have hhashes : (ofTexts items).entries.map (·.hash) =
        (items.map (·.1)).eraseDups.map Key.ofText := by
      have := congrArg (List.map Prod.fst) ih
      simpa [List.map_map, Function.comp_def] using this
    have hmem : Key.ofText n ∈ (ofTexts items).entries.map (·.hash) ↔ n ∈ items.map (·.1) := by
      rw [hhashes, List.mem_map]
      constructor
      · rintro ⟨m, hm, heq⟩
        rw [← ofText_inj.mp heq]
        exact List.mem_eraseDups.mp hm
      · intro hn
        exact ⟨n, List.mem_eraseDups.mpr hn, rfl⟩
    rw [ofTexts_concat, List.map_append, List.eraseDups_append]
    refine (map_key_insertEntry ⟨Key.ofText n, .str n, v⟩ _).trans ?_
    by_cases hn : n ∈ items.map (·.1)
    · rw [if_pos (hmem.mpr hn), ih]
      simp [List.removeAll, hn]
    · rw [if_neg (fun h => hn (hmem.mp h)), ih]
      simp [List.removeAll, hn, List.eraseDups_cons]

theorem keys_ofTexts (items : List (String × Value)) :
    (ofTexts items).keys = (items.map (·.1)).eraseDups.map Value.str := by
  have := congrArg (List.map Prod.snd) (map_key_ofTexts items)
  simpa [keys, List.map_map, Function.comp_def] using this

theorem insertEntry_of_not_mem {e : Entry} {entries : List Entry}
    (h : e.hash ∉ entries.map (·.hash)) : insertEntry e entries = entries ++ [e] := by
  induction entries with
  | nil => rfl
  | cons f rest ih =>
    rw [List.map_cons, List.mem_cons, not_or] at h
    rw [insertEntry, if_neg (by simpa using Ne.symm h.1), ih h.2]
    rfl

/-- Different names give one entry each. -/
theorem entries_ofTexts {items : List (String × Value)} (h : (items.map Prod.fst).Nodup) :
    (ofTexts items).entries =
      items.map fun item => ⟨Key.ofText item.1, .str item.1, item.2⟩ := by
  induction items using List.reverseRecOn with
  | nil => rfl
  | append_singleton items item ih =>
    obtain ⟨n, v⟩ := item
    rw [List.map_append, List.nodup_append] at h
    obtain ⟨hitems, -, hdisjoint⟩ := h
    have hnot : Key.ofText n ∉ (ofTexts items).entries.map (·.hash) := by
      rw [ih hitems, List.map_map]
      intro hmem
      obtain ⟨item, hitem, heq⟩ := List.mem_map.mp hmem
      exact hdisjoint item.1 (List.mem_map.mpr ⟨item, hitem, rfl⟩) n
        (List.mem_singleton_self n) (ofText_inj.mp heq)
    rw [ofTexts_concat, List.map_append, ← ih hitems]
    exact insertEntry_of_not_mem (e := ⟨Key.ofText n, .str n, v⟩) hnot

/-! ## Putting in several values -/

/-- Puts values under names, one after the other. -/
def insertTexts (d : Dict) (pairs : List (String × Value)) : Dict :=
  pairs.foldl (fun d pair => d.insertText pair.1 pair.2) d

theorem getText?_insertText (d : Dict) (name other : String) (value : Value) :
    (d.insertText name value).getText? other =
      if other = name then some value else d.getText? other := by
  unfold getText? insertText
  rw [get?_insert]
  simp only [ofText_inj]

theorem get?_insertTexts_of_not_mem {hash : Key} {pairs : List (String × Value)} (d : Dict)
    (h : hash ∉ pairs.map fun pair => Key.ofText pair.1) :
    (d.insertTexts pairs).get? hash = d.get? hash := by
  induction pairs generalizing d with
  | nil => rfl
  | cons pair pairs ih =>
    rw [List.map_cons, List.mem_cons, not_or] at h
    refine (ih (d.insertText pair.1 pair.2) h.2).trans ?_
    unfold insertText
    rw [get?_insert, if_neg h.1]

theorem getText?_insertTexts_of_not_mem {name : String} {pairs : List (String × Value)} (d : Dict)
    (h : name ∉ pairs.map Prod.fst) : (d.insertTexts pairs).getText? name = d.getText? name := by
  refine get?_insertTexts_of_not_mem d fun hmem => h ?_
  obtain ⟨pair, hpair, heq⟩ := List.mem_map.mp hmem
  exact List.mem_map.mpr ⟨pair, hpair, ofText_inj.mp heq⟩

theorem getText?_insertTexts {name : String} {value : Value} {pairs : List (String × Value)}
    (d : Dict) (hnodup : (pairs.map Prod.fst).Nodup) (h : (name, value) ∈ pairs) :
    (d.insertTexts pairs).getText? name = some value := by
  induction pairs generalizing d with
  | nil => cases h
  | cons pair pairs ih =>
    rw [List.map_cons, List.nodup_cons] at hnodup
    rcases List.mem_cons.mp h with rfl | h
    · refine (getText?_insertTexts_of_not_mem (d.insertText name value) hnodup.1).trans ?_
      rw [getText?_insertText, if_pos rfl]
    · exact ih (d.insertText pair.1 pair.2) hnodup.2 h

end Lisplet.Dict
