import Lisplet.Store.Equality
import Mathlib.Data.List.Nodup
import Mathlib.Data.List.Perm.Subperm
import Mathlib.Logic.Relation

/-!
# Values with the same content

Two values match if they are the same object, if they have the same text or the same place on the
number line, or if they are built alike from parts that match (`Store.Matches`). The comparison of
values decides this whenever the first value does not contain itself, nor leads to something that
does, whatever the second one is (`equal_decides`): on the way into the first value no list and no
dictionary is followed twice, and the store has so many of them that are not empty.
-/

namespace Lisplet

open Relation

/-! ## Matching -/

namespace Store

mutual

/-- The values are the same object or have the same content. -/
inductive Matches (s : Store) : Value → Value → Prop where
  | same {v w : Value} (h : v.same w = true) : Matches s v w
  /-- Numbers at the same position; a boolean counts as one or zero. -/
  | number {v w : Value} {e : Extent} (hv : v.extent? = some e) (hw : w.extent? = some e) :
    Matches s v w
  /-- Texts, and the kinds of nodes that act as texts. -/
  | text {v w : Value} {t : String} (hv : v.text? = some t) (hw : w.text? = some t) : Matches s v w
  | built {v w : Value} (h : BuiltAlike s v w) : Matches s v w

/-- The values are built in the same way from parts that match. -/
inductive BuiltAlike (s : Store) : Value → Value → Prop where
  | list {x y : ListRef} (h : List.Forall₂ (Matches s) (s.list x).toList (s.list y).toList) :
    BuiltAlike s (.list x) (.list y)
  | tuple {i j : Nat} {xs ys : List Value} (h : List.Forall₂ (Matches s) xs ys) :
    BuiltAlike s (.tuple i xs) (.tuple j ys)
  /-- Dictionaries with the same keys, in whatever order, and values under them that match. -/
  | dict {x y : DictRef} (hsize : (s.dict x).size = (s.dict y).size)
    (hkeys : ∀ e ∈ (s.dict x).entries, (s.dict y).contains e.hash = true)
    (h : ∀ e ∈ (s.dict x).entries, ∀ v, (s.dict y).get? e.hash = some v → Matches s e.value v) :
    BuiltAlike s (.dict x) (.dict y)
  | node {m n : Expr} (h : NodesMatch s m n) : BuiltAlike s (.node m) (.node n)
  /-- The same method of the same object. -/
  | method {v w : Value} {m n : Method} {i j : Nat}
    (h : (Value.method v m i).receiverKey = (Value.method w n j).receiverKey) :
    BuiltAlike s (.method v m i) (.method w n j)
  | bytes {i j : Nat} {xs ys : List UInt8} (h : xs = ys) : BuiltAlike s (.bytes i xs) (.bytes j ys)
  /-- Sets with the same elements are one key. -/
  | set {i j : Nat} {xs ys : List Value}
    (h : (Value.set i xs).key.toOption = (Value.set j ys).key.toOption) :
    BuiltAlike s (.set i xs) (.set j ys)

/-- The nodes have the same kind, the same line and matching content. -/
inductive NodesMatch (s : Store) : Expr → Expr → Prop where
  | leaf {k : LeafKind} {text : String} {p q : Mark} (h : p.line = q.line) :
    NodesMatch s (.leaf k text p) (.leaf k text q)
  | group {k : GroupKind} {xs ys : List Expr} {p q : Mark}
    (hitems : List.Forall₂ (NodesMatch s) xs ys) (h : p.line = q.line) :
    NodesMatch s (.group k xs p) (.group k ys q)
  | host {v w p q : Value} {i j : Nat} (hvalue : Matches s v w) (hline : Matches s p q) :
    NodesMatch s (.host v p i) (.host w q j)

end

variable {s : Store} {v w : Value}

/-- Values that are not the same object, and are neither numbers nor texts, match if they are built
alike. -/
theorem matches_iff_builtAlike (hsame : ¬v.same w = true) (hnumber : v.extent? = none)
    (htext : v.text? = none) : s.Matches v w ↔ s.BuiltAlike v w := by
  refine ⟨fun h => ?_, .built⟩
  cases h with
  | same h => exact absurd h hsame
  | number h _ => rw [hnumber] at h; cases h
  | text h _ => rw [htext] at h; cases h
  | built h => exact h

/-- The dictionaries have the same keys, and what they have under them matches. -/
def DictsMatch (s : Store) (x y : DictRef) : Prop :=
  (s.dict x).size = (s.dict y).size ∧
    ∀ e ∈ (s.dict x).entries, ∃ v, (s.dict y).get? e.hash = some v ∧ s.Matches e.value v

theorem builtAlike_dict {x y : DictRef} :
    s.BuiltAlike (.dict x) (.dict y) ↔ s.DictsMatch x y := by
  constructor
  · rintro ⟨⟩
    next hsize hkeys h =>
    refine ⟨hsize, fun e he => ?_⟩
    obtain ⟨v, hv⟩ := Option.isSome_iff_exists.mp (hkeys e he)
    exact ⟨v, hv, h e he v hv⟩
  · rintro ⟨hsize, h⟩
    refine .dict hsize (fun e he => ?_) fun e he v hv => ?_
    · obtain ⟨v, hv, -⟩ := h e he
      exact Option.isSome_iff_exists.mpr ⟨v, hv⟩
    · obtain ⟨w, hw, hmatch⟩ := h e he
      obtain rfl := Option.some.inj (hv.symm.trans hw)
      exact hmatch

end Store

/-! ## Parts -/

/-- The second value is built from the first one and others. -/
inductive Value.Inside : Value → Value → Prop where
  | tuple {id : Nat} {items : List Value} {v : Value} (h : v ∈ items) : Inside v (.tuple id items)
  | item {k : GroupKind} {items : List Expr} {mark : Mark} {n : Expr} (h : n ∈ items) :
    Inside (.node n) (.node (.group k items mark))
  | content (v line : Value) (serial : Nat) : Inside v (.node (.host v line serial))
  | line (v line : Value) (serial : Nat) : Inside line (.node (.host v line serial))

namespace Store

variable {s : Store} {v w : Value}

/-- The second value contains the first one. -/
inductive PartOf (s : Store) : Value → Value → Prop where
  | inside {v w : Value} (h : v.Inside w) : PartOf s v w
  | list {r : ListRef} {v : Value} (h : v ∈ (s.list r).toList) : PartOf s v (.list r)
  | dict {r : DictRef} {e : Entry} (h : e ∈ (s.dict r).entries) : PartOf s e.value (.dict r)

/-- Neither the value nor anything that it contains, in however many steps, contains itself. -/
def Acyclic (s : Store) (v : Value) : Prop :=
  ∀ w, ReflTransGen s.PartOf w v → ¬TransGen s.PartOf w w

theorem Acyclic.part (h : s.Acyclic w) (hpart : s.PartOf v w) : s.Acyclic v :=
  fun u hu => h u (hu.tail hpart)

theorem Acyclic.of_parts (h : ∀ u, s.PartOf u v → s.Acyclic u) : s.Acyclic v := by
  intro w hw hloop
  obtain ⟨u, hwu, hu⟩ := TransGen.tail'_iff.mp (hloop.trans_left hw)
  exact h u hu w hwu hloop

end Store

/-! ## Deciding -/

/-- A comparison that has ended and says whether something holds. -/
inductive Decides : Option Bool → Prop → Prop where
  | yes {p : Prop} (h : p) : Decides (some true) p
  | no {p : Prop} (h : ¬p) : Decides (some false) p

namespace Decides

variable {p q : Prop} {o o' : Option Bool}

theorem of_iff {b : Bool} (h : b = true ↔ p) : Decides (some b) p := by
  cases b with
  | true => exact .yes (h.mp rfl)
  | false => exact .no fun hp => absurd (h.mpr hp) (by simp)

theorem congr (h : Decides o p) (hpq : p ↔ q) : Decides o q := by
  cases h with
  | yes hp => exact .yes (hpq.mp hp)
  | no hp => exact .no fun hq => hp (hpq.mpr hq)

/-- Something is decided only if what comes before it holds. -/
theorem and (h : Decides o p) (h' : p → Decides o' q) :
    Decides (o >>= fun b => if b then o' else pure false) (p ∧ q) := by
  cases h with
  | yes hp => exact (h' hp).congr (by simp [hp])
  | no hp => exact .no fun hpq => hp hpq.1

end Decides

namespace Store

variable {α : Type} {P : α → α → Prop} {rel : α → α → Option Bool}

theorem allPairs_decides {xs : List α} (h : ∀ a ∈ xs, ∀ b, Decides (rel a b) (P a b))
    (ys : List α) : Decides (allPairs rel xs ys) (List.Forall₂ P xs ys) := by
  induction xs generalizing ys with
  | nil =>
    cases ys with
    | nil => exact .yes .nil
    | cons b bs => exact .no nofun
  | cons a as ih =>
    cases ys with
    | nil => exact .no nofun
    | cons b bs =>
      have hrest : Decides (allPairs rel as bs) (List.Forall₂ P as bs) :=
        ih (fun c hc => h c (List.mem_cons_of_mem a hc)) bs
      exact ((h a List.mem_cons_self b).and fun _ => hrest).congr List.forall₂_cons.symm

theorem allPass_decides {Q : α → Prop} {test : α → Option Bool} {xs : List α}
    (h : ∀ a ∈ xs, Decides (test a) (Q a)) : Decides (allPass test xs) (∀ a ∈ xs, Q a) := by
  induction xs with
  | nil => exact .yes nofun
  | cons a as ih =>
    have hrest := ih fun c hc => h c (List.mem_cons_of_mem a hc)
    exact ((h a List.mem_cons_self).and fun _ => hrest).congr List.forall_mem_cons.symm

end Store

namespace Value

variable {s : Store} {lists : ListRef → ListRef → Option Bool}
  {dicts : DictRef → DictRef → Option Bool} {Good : Value → Prop}

theorem equalItemsBy_eq (xs ys : List Value) :
    equalItemsBy lists dicts xs ys = Store.allPairs (equalBy lists dicts) xs ys := by
  induction xs generalizing ys with
  | nil => cases ys <;> rfl
  | cons a as ih =>
    cases ys with
    | nil => rfl
    | cons b bs =>
      rw [equalItemsBy, Store.allPairs, ih]

theorem equalNodesBy_eq (ms ns : List Expr) :
    equalNodesBy lists dicts ms ns = Store.allPairs (equalNodeBy lists dicts) ms ns := by
  induction ms generalizing ns with
  | nil => cases ns <;> rfl
  | cons m ms ih =>
    cases ns with
    | nil => rfl
    | cons n ns =>
      rw [equalNodesBy, Store.allPairs, ih]

/-- Comparing the value, or the node, with any other one ends and says whether they match. -/
structure Decided (s : Store) (lists : ListRef → ListRef → Option Bool)
    (dicts : DictRef → DictRef → Option Bool) (v : Value) : Prop where
  value : ∀ w, Decides (v.equalBy lists dicts w) (s.Matches v w)
  node : ∀ m, v = .node m → ∀ n, Decides (equalNodeBy lists dicts m n) (s.NodesMatch m n)

/-- Nodes are compared by their parts. -/
theorem equalNodeBy_decides {m : Expr}
    (hparts : ∀ v, Inside v (.node m) → Decided s lists dicts v) (n : Expr) :
    Decides (equalNodeBy lists dicts m n) (s.NodesMatch m n) := by
  unfold equalNodeBy
  split
  · next j t p k u q =>
    refine .of_iff ?_
    simp only [Bool.and_eq_true, beq_iff_eq]
    constructor
    · rintro ⟨⟨rfl, rfl⟩, hline⟩
      exact .leaf hline
    · rintro (_ | _ | _)
      exact ⟨⟨rfl, rfl⟩, ‹_›⟩
  · next j xs p k ys q =>
    rw [equalNodesBy_eq]
    split
    · next hkind =>
      refine .no fun h => ?_
      cases h
      simp at hkind
    · next hkind =>
      obtain rfl : j = k := by simpa using hkind
      have hitems := Store.allPairs_decides
        (fun m hm n => (hparts (.node m) (.item hm)).node m rfl n) ys
      have hline : Decides (some (p.line == q.line)) (p.line = q.line) := .of_iff beq_iff_eq
      refine (hitems.and fun _ => hline).congr ⟨fun h => .group h.1 h.2, ?_⟩
      rintro (_ | _ | _)
      exact ⟨‹_›, ‹_›⟩
  · next v p i w q j =>
    have hvalue := (hparts v (.content v p i)).value w
    have hline := (hparts p (.line v p i)).value q
    refine (hvalue.and fun _ => hline).congr ⟨fun h => .host h.1 h.2, ?_⟩
    rintro (_ | _ | _)
    exact ⟨‹_›, ‹_›⟩
  · next hleaf hgroup hhost =>
    refine .no fun h => ?_
    cases h with
    | leaf => exact hleaf _ _ _ _ _ _ rfl rfl
    | group => exact hgroup _ _ _ _ _ _ rfl rfl
    | host => exact hhost _ _ _ _ _ _ rfl rfl

theorem isNumber_of_extent? {v : Value} {e : Extent} (h : v.extent? = some e) :
    v.isNumber = true := by
  cases v <;> first | rfl | cases h

theorem text?_of_isNumber {v : Value} (h : v.isNumber = true) : v.text? = none := by
  cases v <;> first | rfl | cases h

/-- Numbers match if they stand at the same position. -/
theorem matches_number {v w : Value} (hsame : ¬v.same w = true)
    (hnumber : (v.isNumber && w.isNumber) = true) :
    (v.extent?.isSome && v.extent? == w.extent?) = true ↔ s.Matches v w := by
  obtain ⟨hv, hw⟩ := Bool.and_eq_true_iff.mp hnumber
  rw [Bool.and_eq_true, beq_iff_eq]
  constructor
  · rintro ⟨hsome, heq⟩
    obtain ⟨e, he⟩ := Option.isSome_iff_exists.mp hsome
    exact .number he (heq ▸ he)
  · intro h
    cases h with
    | same h => exact absurd h hsame
    | number hv hw => simp [hv, hw]
    | text h _ => rw [text?_of_isNumber hv] at h; cases h
    | built h => cases h <;> cases hv

/-- What remains matches if it has the same text. -/
theorem matches_iff_text {v w : Value} (hsame : ¬v.same w = true)
    (hnumber : ¬(v.isNumber && w.isNumber) = true) (hbuilt : ¬s.BuiltAlike v w) :
    s.Matches v w ↔ ∃ t, v.text? = some t ∧ w.text? = some t := by
  constructor
  · intro h
    cases h with
    | same h => exact absurd h hsame
    | number hv hw =>
      exact absurd (by simp [isNumber_of_extent? hv, isNumber_of_extent? hw]) hnumber
    | text hv hw => exact ⟨_, hv, hw⟩
    | built h => exact absurd h hbuilt
  · rintro ⟨t, hv, hw⟩
    exact .text hv hw

/-- Values are compared by their parts. -/
theorem equalBy_decides {v : Value} (hparts : ∀ u, u.Inside v → Decided s lists dicts u)
    (hlist : ∀ x, v = .list x → ∀ y,
      Decides (lists x y) (List.Forall₂ s.Matches (s.list x).toList (s.list y).toList))
    (hdict : ∀ x, v = .dict x → ∀ y, Decides (dicts x y) (s.DictsMatch x y)) (w : Value) :
    Decides (v.equalBy lists dicts w) (s.Matches v w) := by
  unfold equalBy
  split
  · next hsame => exact .yes (.same hsame)
  · next hsame =>
    split
    · next hnumber => exact .of_iff (matches_number hsame hnumber)
    · next hnumber =>
      split
      · next x y =>
        refine (hlist x rfl y).congr (.symm ?_)
        exact (Store.matches_iff_builtAlike hsame rfl rfl).trans ⟨fun | .list h => h, .list⟩
      · next i xs j ys =>
        rw [equalItemsBy_eq]
        have hitems := Store.allPairs_decides (fun u hu => (hparts u (.tuple hu)).value) ys
        refine hitems.congr (.symm ?_)
        exact (Store.matches_iff_builtAlike hsame rfl rfl).trans ⟨fun | .tuple h => h, .tuple⟩
      · next x y =>
        refine (hdict x rfl y).congr (.symm ?_)
        exact (Store.matches_iff_builtAlike hsame rfl rfl).trans Store.builtAlike_dict
      · next m n =>
        refine (equalNodeBy_decides hparts n).congr (.symm ?_)
        exact (Store.matches_iff_builtAlike hsame rfl rfl).trans ⟨fun | .node h => h, .node⟩
      · next =>
        refine .of_iff (beq_iff_eq.trans (.symm ?_))
        exact (Store.matches_iff_builtAlike hsame rfl rfl).trans ⟨fun | .method h => h, .method⟩
      · next =>
        refine .of_iff (beq_iff_eq.trans (.symm ?_))
        exact (Store.matches_iff_builtAlike hsame rfl rfl).trans ⟨fun | .bytes h => h, .bytes⟩
      · next =>
        refine .of_iff (beq_iff_eq.trans (.symm ?_))
        exact (Store.matches_iff_builtAlike hsame rfl rfl).trans ⟨fun | .set h => h, .set⟩
      · next hlists htuples hdicts hnodes hmethods hbytes hsets =>
        have hbuilt : ¬s.BuiltAlike v w := by
          rintro (_ | _ | _ | _ | _ | _ | _)
          · exact hlists _ _ rfl rfl
          · exact htuples _ _ _ _ rfl rfl
          · exact hdicts _ _ rfl rfl
          · exact hnodes _ _ rfl rfl
          · exact hmethods _ _ _ _ _ _ rfl rfl
          · exact hbytes _ _ _ _ rfl rfl
          · exact hsets _ _ _ _ rfl rfl
        refine Decides.congr ?_ (matches_iff_text hsame hnumber hbuilt).symm
        split
        · next t u ht hu => exact .of_iff (by simpa [ht, hu] using eq_comm)
        · next hnone => exact .no fun ⟨t, hv, hw⟩ => hnone t t hv hw

theorem sizeOf_lt_of_inside {u v : Value} (h : u.Inside v) : sizeOf u < sizeOf v := by
  cases h with
  | tuple h =>
    have hlt := List.sizeOf_lt_of_mem h
    simp only [tuple.sizeOf_spec]
    omega
  | item h =>
    have hlt := List.sizeOf_lt_of_mem h
    simp only [node.sizeOf_spec, Node.group.sizeOf_spec]
    omega
  | content | line =>
    simp only [node.sizeOf_spec, Node.host.sizeOf_spec]
    omega

/-- A value is compared with any other one if the lists and dictionaries in it are. -/
theorem decided_of_good (hinside : ∀ u v, u.Inside v → Good v → Good u)
    (hlist : ∀ x, Good (.list x) → ∀ y,
      Decides (lists x y) (List.Forall₂ s.Matches (s.list x).toList (s.list y).toList))
    (hdict : ∀ x, Good (.dict x) → ∀ y, Decides (dicts x y) (s.DictsMatch x y))
    (v : Value) (hv : Good v) : Decided s lists dicts v := by
  have hparts : ∀ u, u.Inside v → Decided s lists dicts u := fun u hu =>
    decided_of_good hinside hlist hdict u (hinside u v hu hv)
  refine ⟨fun w => ?_, fun m hm n => ?_⟩
  · exact equalBy_decides hparts (fun x hx => hlist x (hx ▸ hv)) (fun x hx => hdict x (hx ▸ hv)) w
  · exact equalNodeBy_decides (fun u hu => hparts u (hm ▸ hu)) n
termination_by sizeOf v
decreasing_by exact sizeOf_lt_of_inside hu

end Value

/-! ## Following references -/

namespace Store

variable {s : Store} {u v : Value} {seen : List Value}

/-- A list or a dictionary with something in it. -/
inductive Filled (s : Store) : Value → Prop where
  | list {r : ListRef} {v : Value} (h : v ∈ (s.list r).toList) : Filled s (.list r)
  | dict {r : DictRef} {e : Entry} (h : e ∈ (s.dict r).entries) : Filled s (.dict r)

/-- The lists and dictionaries with something in them. -/
def filledValues (s : Store) : List Value :=
  (s.lists.toList.zipIdx.filter (!·.1.isEmpty)).map (fun p => .list ⟨p.2⟩) ++
    (s.dicts.toList.zipIdx.filter (·.1.size != 0)).map (fun p => .dict ⟨p.2⟩)

theorem length_filter_zipIdx {α : Type} (p : α → Bool) (xs : Array α) :
    (xs.toList.zipIdx.filter fun q => p q.1).length = xs.countP p := by
  rw [← List.countP_eq_length_filter, ← Array.countP_toList]
  conv_rhs => rw [← List.zipIdx_map_fst 0 xs.toList, List.countP_map]
  rfl

theorem length_filledValues (s : Store) : s.filledValues.length = s.filled := by
  rw [filledValues, List.length_append, List.length_map, List.length_map]
  exact congrArg₂ (· + ·) (length_filter_zipIdx (!·.isEmpty) s.lists)
    (length_filter_zipIdx (·.size != 0) s.dicts)

theorem Filled.mem (h : s.Filled v) : v ∈ s.filledValues := by
  rw [filledValues, List.mem_append, List.mem_map, List.mem_map]
  cases h with
  | @list r v h =>
    refine .inl ⟨(s.list r, r.index), List.mem_filter.mpr ⟨?_, ?_⟩, rfl⟩
    · rw [List.mk_mem_zipIdx_iff_getElem?, Array.getElem?_toList]
      rw [Store.list, Array.getD_eq_getD_getElem?] at h ⊢
      cases hr : s.lists[r.index]? with
      | some xs => rfl
      | none => simp [hr] at h
    · have hsome : s.list r ≠ #[] := fun hnone => by simp [hnone] at h
      simpa using hsome
  | @dict r e h =>
    refine .inr ⟨(s.dict r, r.index), List.mem_filter.mpr ⟨?_, ?_⟩, rfl⟩
    · rw [List.mk_mem_zipIdx_iff_getElem?, Array.getElem?_toList]
      rw [Store.dict, Array.getD_eq_getD_getElem?] at h ⊢
      cases hr : s.dicts[r.index]? with
      | some d => rfl
      | none => simp [hr, Dict.empty] at h
    · have hsome : (s.dict r).entries ≠ [] := List.ne_nil_of_mem h
      simpa [Dict.size] using hsome

/-- So many different lists and dictionaries can have something in them. -/
theorem length_le_filled (hnodup : seen.Nodup) (h : ∀ u ∈ seen, s.Filled u) :
    seen.length ≤ s.filled := by
  have hsub : seen.Subperm s.filledValues :=
    List.subperm_of_subset hnodup fun u hu => (h u hu).mem
  exact s.length_filledValues ▸ hsub.length_le

/-- The value does not lead back to itself, and is part of everything that was followed on the way
to it. -/
structure Fresh (s : Store) (seen : List Value) (v : Value) : Prop where
  acyclic : s.Acyclic v
  below : ∀ u ∈ seen, TransGen s.PartOf v u

namespace Fresh

theorem part (h : s.Fresh seen v) (hpart : s.PartOf u v) : s.Fresh seen u :=
  ⟨h.acyclic.part hpart, fun w hw => .head hpart (h.below w hw)⟩

theorem not_mem (h : s.Fresh seen v) : v ∉ seen :=
  fun hv => h.acyclic v .refl (h.below v hv)

/-- What a value contains is fresh once the value has been followed. -/
theorem follow (h : s.Fresh seen v) (hpart : s.PartOf u v) : s.Fresh (v :: seen) u := by
  refine ⟨h.acyclic.part hpart, fun w hw => ?_⟩
  obtain rfl | hw := List.mem_cons.mp hw
  · exact .single hpart
  · exact .head hpart (h.below w hw)

end Fresh

theorem equalEntry_decides {follow : Value → Value → Option Bool} {d : Dict} {e : Entry}
    (h : ∀ w, Decides (follow e.value w) (s.Matches e.value w)) :
    Decides (equalEntry follow d e) (∃ w, d.get? e.hash = some w ∧ s.Matches e.value w) := by
  unfold equalEntry
  cases hw : d.get? e.hash with
  | some w => exact (h w).congr (by simp)
  | none => exact .no (by simp)

theorem equalDicts_decides {follow : Value → Value → Option Bool} {x y : DictRef}
    (h : ∀ e ∈ (s.dict x).entries, ∀ w, Decides (follow e.value w) (s.Matches e.value w)) :
    Decides (s.equalDicts follow x y) (s.DictsMatch x y) := by
  unfold equalDicts
  split
  · next hsize => exact .no fun hmatch => absurd hmatch.1 (by simpa using hsize)
  · next hsize =>
    have hentries := allPass_decides fun e he => equalEntry_decides (d := s.dict y) (h e he)
    exact hentries.congr ⟨fun hall => ⟨by simpa using hsize, hall⟩, And.right⟩

/-- A value is compared with any other one, if more lists and dictionaries may be followed below
each other than are left of those in the store. -/
theorem equalWithin_decides {fuel : Nat} (hnodup : seen.Nodup) (hseen : ∀ u ∈ seen, s.Filled u)
    (hroom : s.filled < fuel + seen.length) (hv : s.Fresh seen v) (w : Value) :
    Decides (s.equalWithin fuel v w) (s.Matches v w) := by
  induction fuel generalizing seen v w with
  | zero =>
    have hle := length_le_filled hnodup hseen
    omega
  | succ fuel ih =>
    -- The elements of a list or dictionary are compared with the rest of the fuel.
    have hpart : ∀ {u v : Value}, s.Fresh seen v → s.Filled v → s.PartOf u v → ∀ w,
        Decides (s.equalWithin fuel u w) (s.Matches u w) := fun {u v} hv hfilled hu =>
      ih (List.nodup_cons.mpr ⟨hv.not_mem, hnodup⟩) (List.forall_mem_cons.mpr ⟨hfilled, hseen⟩)
        (by rw [List.length_cons]; omega) (hv.follow hu)
    refine (Value.decided_of_good (fun u v hu hv => hv.part (.inside hu)) ?_ ?_ v hv).value w
    · intro x hx y
      exact allPairs_decides (fun a ha => hpart hx (.list ha) (.list ha)) _
    · intro x hx y
      exact equalDicts_decides fun e he => hpart hx (.dict he) (.dict he)

/-- The comparison of a value that leads to no value that contains itself ends, and says whether the
values match. -/
theorem equal_decides (hv : s.Acyclic v) (w : Value) :
    Decides (s.equal v w) (s.Matches v w) := by
  have hroom : s.filled < (max equalDepth s.filled + 1) + ([] : List Value).length := by
    rw [List.length_nil]
    omega
  exact equalWithin_decides List.nodup_nil nofun hroom ⟨hv, nofun⟩ w

end Store

end Lisplet
