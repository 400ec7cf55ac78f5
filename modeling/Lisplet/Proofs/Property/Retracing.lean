import Lisplet.Proofs.Property.Places

/-!
# Retracing paths

A path is clear if it leads through containers of the store, comes to none of them twice, and ends
with a key under which the last one can be written and read. What was written along a clear path is
read back along it: the write changes one place, which is in the last container, so that the read
comes through the same containers again (`getPath_retrace`).

Main statement: `setPath_spec`.
-/

namespace Lisplet.Property

open Lisplet.Action

variable {s t : Store} {v w x owner : Value} {path : List Value} {p : Place}

/-- The value at the start of a path, and each value that is read along it. -/
def visited (s : Store) (v : Value) : List Value → List Value
  | [] => [v]
  | key :: path => v :: match get v key s with
    | .done w t => visited t w path
    | _ => []

/-- A read along the path comes through containers of the store, and to none of them twice. -/
structure Through (s : Store) (v : Value) (path : List Value) : Prop where
  containers : ∀ c ∈ visited s v path, s.Has c
  distinct : (visited s v path).Nodup

/-- Before its last key the path leads through containers, and the last one accepts this key. -/
structure Clear (s : Store) (v : Value) (path : List Value) : Prop where
  nonempty : path ≠ []
  through : Through s v path.dropLast
  accepts : ∀ owner ∈ (visited s v path.dropLast).getLast?, ∀ key ∈ path.getLast?,
    owner.Accepts key

/-- The place that the last key of a path denotes in the last container. -/
def Target (s : Store) (v : Value) (path : List Value) (p : Place) : Prop :=
  ∃ owner ∈ (visited s v path.dropLast).getLast?, ∃ key ∈ path.getLast?, owner.place? key = some p

/-! ## One step -/

theorem visited_cons {key : Value} (h : get v key s = .done w t) :
    visited s v (key :: path) = v :: visited t w path := by
  unfold visited
  rw [h]
  cases path <;> rfl

theorem mem_visited (s : Store) (v : Value) (path : List Value) : v ∈ visited s v path := by
  cases path <;> exact List.mem_cons_self

/-- The first key of the path denotes the place of the next container, and reading it changes
nothing. -/
theorem Through.step {key : Value} (h : Through s v (key :: path))
    (hget : get v key s = .done w t) :
    t = s ∧ Through s w path ∧ v ∉ visited s w path ∧
      ∃ p, v.place? key = some p ∧ s.at? p = some w := by
  obtain ⟨hcontainers, hdistinct⟩ := h
  rw [visited_cons hget] at hcontainers hdistinct
  have hv := hcontainers v List.mem_cons_self
  have hw := hcontainers w (List.mem_cons_of_mem v (mem_visited t w path))
  obtain ⟨rfl, hplace⟩ := get_container hv hw hget
  obtain ⟨hnot, hrest⟩ := List.nodup_cons.mp hdistinct
  exact ⟨rfl, ⟨fun c hc => hcontainers c (List.mem_cons_of_mem v hc), hrest⟩, hnot, hplace⟩

/-! ## Reading along a path -/

/-- A read through containers changes nothing and ends with the last one. -/
theorem getPath_through (h : Through s v path) (hread : getPath v path s = .done owner t) :
    t = s ∧ (visited s v path).getLast? = some owner := by
  induction path generalizing v s with
  | nil =>
    cases hread
    exact ⟨rfl, rfl⟩
  | cons key path ih =>
    rw [getPath_cons] at hread
    obtain ⟨w, u, hget, hrest⟩ := bind_eq_done.mp hread
    obtain ⟨rfl, hthrough, -, -⟩ := h.step hget
    obtain ⟨rfl, hlast⟩ := ih hthrough hrest
    refine ⟨rfl, ?_⟩
    rw [visited_cons hget, List.getLast?_cons, hlast]
    rfl

theorem WrittenAt.denylist (h : Store.WrittenAt p x s t) : t.denylist = s.denylist := by
  rw [h.rest]

/-- After the last container was written, a read through containers ends with it as before. -/
theorem getPath_retrace (hw : Store.WrittenAt p x s t) (hp : p.owner = owner)
    (h : Through s v path) (hkeys : ∀ key ∈ path, ¬Forbidden s.denylist key)
    (hread : getPath v path s = .done owner s) : getPath v path t = .done owner t := by
  induction path generalizing v with
  | nil =>
    cases hread
    rfl
  | cons key path ih =>
    have hv := h.containers v (mem_visited s v _)
    rw [getPath_cons] at hread ⊢
    obtain ⟨w, u, hget, hrest⟩ := bind_eq_done.mp hread
    obtain ⟨rfl, hthrough, hnot, q, hq, hat⟩ := h.step hget
    have howner : owner ∈ visited u w path :=
      List.mem_of_getLast? (getPath_through hthrough hrest).2
    -- the place that was written is in another container than the one that is read here
    have hne : q ≠ p := by
      rintro rfl
      have hv' := hv.owner hq
      rw [hp] at hv'
      exact hnot (hv' ▸ howner)
    have hguard : guardKey key t = .done () t := by
      refine guardKey_passes ?_
      rw [WrittenAt.denylist hw]
      exact hkeys key List.mem_cons_self
    have hstep : get v key t = .done w t := by
      rw [get_place hv hq hguard, hw.others q hne, hat, Option.getD_some]
    rw [bind_of_done hstep]
    exact ih hthrough (fun key hkey => hkeys key (List.mem_cons_of_mem _ hkey)) hrest

/-! ## Writing along a path -/

theorem getPath_concat (v : Value) (path : List Value) (key : Value) :
    getPath v (path ++ [key]) = getPath v path >>= fun w => get w key := by
  unfold getPath
  rw [List.foldlM_append]
  simp only [List.foldlM_cons, List.foldlM_nil, bind_pure]

/-- What was written along a clear path is read back along it, and it stands at the place that the
path denotes; nothing else has changed. -/
theorem setPath_spec (hclear : Clear s v path) (h : setPath v path x s = .done w t) :
    getPath v path t = .done x t ∧ ∃ p, Target s v path p ∧ Store.WrittenAt p x s t := by
  obtain ⟨hne, hthrough, haccepts⟩ := hclear
  have hkeys : ∀ key ∈ path, ¬Forbidden s.denylist key := by
    intro key hmem hkey
    obtain ⟨e, he, -⟩ := setPath_forbidden v x ⟨key, hmem, hkey⟩
    cases he.symm.trans h
  rw [setPath_of_ne_nil hne, bind_of_done (guardPath_passes hkeys)] at h
  obtain ⟨owner, u, hread, h⟩ := bind_eq_done.mp h
  obtain ⟨⟨⟩, u', hset, hreturn⟩ := bind_eq_done.mp h
  obtain ⟨rfl, hstore⟩ := Outcome.done.inj hreturn
  obtain rfl := hstore.symm
  obtain ⟨rfl, howner⟩ := getPath_through hthrough hread
  have hlast := List.getLast?_eq_some_getLast hne
  have hhas := hthrough.containers owner (List.mem_of_getLast? howner)
  obtain ⟨p, hp, hwritten⟩ := set_place hhas (haccepts owner howner _ hlast) hset
  refine ⟨?_, p, ⟨owner, howner, _, hlast, hp⟩, hwritten⟩
  have hretrace := getPath_retrace hwritten (hhas.owner hp) hthrough
    (fun key hmem => hkeys key (List.dropLast_subset path hmem)) hread
  have hguard : guardKey (path.getLast hne) t = .done () t := by
    refine guardKey_passes ?_
    rw [WrittenAt.denylist hwritten]
    exact hkeys _ (List.getLast_mem hne)
  calc getPath v path t = getPath v (path.dropLast ++ [path.getLast hne]) t := by
        rw [List.dropLast_concat_getLast hne]
    _ = get owner (path.getLast hne) t := by rw [getPath_concat, bind_of_done hretrace]
    _ = .done x t := by rw [get_place hhas hp hguard, hwritten.value, Option.getD_some]

end Lisplet.Property
