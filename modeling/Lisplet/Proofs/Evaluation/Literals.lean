import Lisplet.Evaluation.Eval
import Lisplet.Proofs.Evaluation.Operands
import Lisplet.Proofs.Value.Updates

/-!
# Object literals

An object literal can be cut in two before any key and any spread: its entries are those of the
first part, updated with those of the second. So each spread and each key with its value, if it has
one, can be evaluated on its own, and under a key stands what the last of them gives for it.

Main statement: `entries_spec`.
-/

namespace Lisplet.Machine

open Lisplet.Action

variable {m : Machine} {scope : Value} {xs ys : List Value}

/-- There are no items, or the first one is a key or a spread. -/
def BeginEntry : List Value → Prop
  | [] => True
  | item :: _ => ∃ n : Expr, item = .node n ∧ (n.kind = .leaf .key ∨ n.kind = .leaf .rest)

theorem beginsEntry_eq {item : Value} {rest : List Value} (h : BeginEntry (item :: rest)) :
    beginsEntry item = pure true := by
  obtain ⟨n, rfl, hkind⟩ := h
  have hdenotes : (Operand.denotes (.leaf .key) (.kind n.kind) ||
      Operand.denotes (.leaf .rest) (.kind n.kind)) = true := by
    rw [Bool.or_eq_true, Operand.denotes_kind, Operand.denotes_kind]
    exact hkind
  show (Operand.kind (.node n) >>= fun kind => pure (Operand.denotes (.leaf .key) kind ||
    Operand.denotes (.leaf .rest) kind)) = _
  rw [Operand.kind_node, pure_bind, hdenotes]

theorem insertInto_bind {α : Type} (d : Dict) (key value : Value) (f : Dict → Action α) :
    (insertInto d key value >>= f) = keyOf key >>= fun hash => f (d.insert hash key value) := by
  unfold insertInto
  rw [bind_assoc]
  exact bind_congr fun hash => pure_bind _ _

/-! ## One item -/

theorem entriesInto_nil (d : Dict) : m.entriesInto scope d [] = pure d := rfl

/-- The last item of a literal. -/
theorem entriesInto_last (d : Dict) (item : Value) :
    m.entriesInto scope d [item] = Operand.kind item >>= fun kind =>
      if kind.isKind (.leaf .rest) then
        Operand.content item >>= fun name => m.lookup scope name >>= fun v =>
          Property.own v >>= fun own => pure (d.update own)
      else if kind.isKind (.leaf .key) then
        Operand.content item >>= fun key => insertInto d key .undefined
      else pure d := rfl

/-- An item and the next one, which may be its value. -/
theorem entriesInto_next (d : Dict) (item next : Value) (others : List Value) :
    m.entriesInto scope d (item :: next :: others) = Operand.kind item >>= fun kind =>
      if kind.isKind (.leaf .rest) then
        Operand.content item >>= fun name => m.lookup scope name >>= fun v =>
          Property.own v >>= fun own => m.entriesInto scope (d.update own) (next :: others)
      else if kind.isKind (.leaf .key) then
        beginsEntry next >>= fun begins =>
          if begins then
            Operand.content item >>= fun key => insertInto d key .undefined >>= fun d =>
              m.entriesInto scope d (next :: others)
          else
            m.eval scope next >>= fun v => Operand.content item >>= fun key =>
              insertInto d key v >>= fun d => m.entriesInto scope d others
      else m.entriesInto scope d (next :: others) := rfl

/-! ## Composing -/

/-- A change of dictionaries that may be made before or after something is put into them. -/
structure Commutes (g : Dict → Dict) : Prop where
  insert : ∀ {a : Dict}, a.Distinct → ∀ hash key value,
    (g a).insert hash key value = g (a.insert hash key value)
  update : ∀ {a : Dict}, a.Distinct → ∀ other, (g a).update other = g (a.update other)

theorem commutes_id : Commutes id := ⟨fun _ _ _ _ => rfl, fun _ _ => rfl⟩

theorem commutes_update (d : Dict) : Commutes d.update :=
  ⟨fun ha => Dict.insert_update ha, fun ha => Dict.update_update d ha⟩

/-- The last item of a literal and what follows the literal. -/
theorem entriesInto_append_last {g : Dict → Dict} (hg : Commutes g) (hys : BeginEntry ys)
    (item : Value) {a : Dict} (ha : a.Distinct) :
    m.entriesInto scope (g a) (item :: ys) =
      m.entriesInto scope a [item] >>= fun b => m.entriesInto scope (g b) ys := by
  rw [entriesInto_last, bind_assoc]
  cases ys with
  | nil =>
    rw [entriesInto_last]
    refine bind_congr fun kind => ?_
    split
    · simp only [bind_assoc, pure_bind, entriesInto_nil, hg.update ha]
    · split
      · rw [bind_assoc]
        refine bind_congr fun key => ?_
        rw [insertInto_bind]
        unfold insertInto
        refine bind_congr fun hash => ?_
        rw [hg.insert ha, entriesInto_nil]
      · rw [pure_bind, entriesInto_nil]
  | cons next others =>
    rw [entriesInto_next, beginsEntry_eq hys]
    refine bind_congr fun kind => ?_
    split
    · simp only [bind_assoc, pure_bind, hg.update ha]
    · split
      · rw [pure_bind, if_pos rfl, bind_assoc]
        refine bind_congr fun key => ?_
        rw [insertInto_bind, insertInto_bind]
        refine bind_congr fun hash => ?_
        rw [hg.insert ha]
      · rw [pure_bind]

/-- The entries of a literal are added to a changed dictionary as to an unchanged one, and what
follows the literal can be added to the result. -/
theorem entriesInto_append {g : Dict → Dict} (hg : Commutes g) (hys : BeginEntry ys)
    (xs : List Value) {a : Dict} (ha : a.Distinct) :
    m.entriesInto scope (g a) (xs ++ ys) =
      m.entriesInto scope a xs >>= fun b => m.entriesInto scope (g b) ys := by
  match xs with
  | [] =>
    rw [entriesInto_nil, pure_bind, List.nil_append]
  | [item] => exact entriesInto_append_last hg hys item ha
  | item :: next :: others =>
    have hrest : ∀ {b : Dict}, b.Distinct → m.entriesInto scope (g b) (next :: (others ++ ys)) =
        m.entriesInto scope b (next :: others) >>= fun c => m.entriesInto scope (g c) ys :=
      fun hb => entriesInto_append hg hys (next :: others) hb
    rw [List.cons_append, List.cons_append, entriesInto_next, entriesInto_next, bind_assoc]
    refine bind_congr fun kind => ?_
    split
    · simp only [bind_assoc]
      refine bind_congr fun name => bind_congr fun v => bind_congr fun own => ?_
      rw [hg.update ha, hrest (ha.update own)]
    · split
      · rw [bind_assoc]
        refine bind_congr fun begins => ?_
        split
        · simp only [bind_assoc]
          refine bind_congr fun key => ?_
          rw [insertInto_bind, insertInto_bind]
          refine bind_congr fun hash => ?_
          rw [hg.insert ha, hrest (ha.insert hash key _)]
        · simp only [bind_assoc]
          refine bind_congr fun v => bind_congr fun key => ?_
          rw [insertInto_bind, insertInto_bind]
          refine bind_congr fun hash => ?_
          rw [hg.insert ha]
          exact entriesInto_append hg hys others (ha.insert hash key v)
      · exact hrest ha
termination_by xs.length

theorem entriesInto_eq (d : Dict) (xs : List Value) :
    m.entriesInto scope d xs = m.entries scope xs >>= fun b => pure (d.update b) := by
  have hend : BeginEntry [] := trivial
  have h : m.entriesInto scope (d.update .empty) (xs ++ []) =
      m.entriesInto scope .empty xs >>= fun b => m.entriesInto scope (d.update b) [] :=
    entriesInto_append (commutes_update d) hend xs Dict.distinct_empty
  rw [List.append_nil, Dict.update_empty] at h
  exact h

/-- A literal can be cut in two before a key or a spread. -/
theorem entries_append (hys : BeginEntry ys) (xs : List Value) :
    m.entries scope (xs ++ ys) = do
      let a ← m.entries scope xs
      let b ← m.entries scope ys
      return a.update b := by
  have h : m.entriesInto scope .empty (xs ++ ys) =
      m.entriesInto scope .empty xs >>= fun a => m.entriesInto scope a ys :=
    entriesInto_append commutes_id hys xs Dict.distinct_empty
  exact h.trans (bind_congr fun a => entriesInto_eq a ys)

/-- A key before another key, a spread or the end is void. -/
theorem entries_flag (key : String) (mark : Mark) (hys : BeginEntry ys) :
    m.entries scope (.node (.leaf .key key mark) :: ys) = do
      let b ← m.entries scope ys
      return (Dict.empty.insertText key .undefined).update b := by
  have hflag : m.entries scope [.node (.leaf .key key mark)] =
      pure (Dict.empty.insertText key .undefined) := rfl
  rw [← List.singleton_append, entries_append hys, hflag, pure_bind]

/-! ## Parts -/

/-- A part of an object literal: a spread, or a key with the node of its value, if it has one. -/
inductive Part where
  | spread (name : String)
  | entry (key : String) (value : Option Expr)

/-- The node is a key or a spread. -/
def isPartStart : Expr → Bool
  | .leaf .key _ _ | .leaf .rest _ _ => true
  | _ => false

/-- The parts of an object literal. Nodes that are neither key, value nor spread are passed over. -/
def parts : List Expr → List Part
  | [] => []
  | .leaf .rest name _ :: rest => .spread name :: parts rest
  | .leaf .key key _ :: [] => [.entry key none]
  | .leaf .key key _ :: next :: others =>
    if isPartStart next then .entry key none :: parts (next :: others)
    else .entry key (some next) :: parts others
  | _ :: rest => parts rest

/-- What a part of an object literal gives by itself. -/
def Part.dict (m : Machine) (scope : Value) : Part → Action Dict
  | .spread name => do return Dict.empty.update (← Property.own (← m.lookup scope (.str name)))
  | .entry key none => return Dict.empty.insertText key .undefined
  | .entry key (some value) => do
    return Dict.empty.insertText key (← m.eval scope (.node value))

theorem Part.dict_distinct {part : Part} {s t : Store} {d : Dict}
    (h : part.dict m scope s = .done d t) : d.Distinct := by
  match part with
  | .spread name =>
    obtain ⟨v, u, -, h⟩ := bind_eq_done.mp h
    obtain ⟨own, w, -, h⟩ := bind_eq_done.mp h
    cases h
    exact Dict.distinct_empty.update own
  | .entry key none =>
    cases h
    exact Dict.distinct_empty.insert _ _ _
  | .entry key (some value) =>
    obtain ⟨v, u, -, h⟩ := bind_eq_done.mp h
    cases h
    exact Dict.distinct_empty.insert _ _ _

theorem beginsEntry_node (n : Expr) : beginsEntry (.node n) = pure (isPartStart n) := by
  have hdenotes : (Operand.denotes (.leaf .key) (.kind n.kind) ||
      Operand.denotes (.leaf .rest) (.kind n.kind)) = isPartStart n := by
    match n with
    | .leaf kind _ _ => cases kind <;> rfl
    | .group kind _ _ => cases kind <;> rfl
    | .host _ _ _ => rfl
  rw [← hdenotes]
  rfl

theorem entriesInto_spread (d : Dict) (name : String) (mark : Mark) (rest : List Value) :
    m.entriesInto scope d (.node (.leaf .rest name mark) :: rest) =
      m.lookup scope (.str name) >>= fun v => Property.own v >>= fun own =>
        m.entriesInto scope (d.update own) rest := by
  cases rest <;> rfl

theorem entriesInto_key (d : Dict) (key : String) (mark : Mark) (next : Expr)
    (others : List Value) :
    m.entriesInto scope d (.node (.leaf .key key mark) :: .node next :: others) =
      if isPartStart next then
        m.entriesInto scope (d.insertText key .undefined) (.node next :: others)
      else m.eval scope (.node next) >>= fun v =>
        m.entriesInto scope (d.insertText key v) others := by
  rw [entriesInto_next, beginsEntry_node]
  cases isPartStart next <;> rfl

theorem entriesInto_other (d : Dict) {item : Expr} (h : isPartStart item = false)
    (rest : List Value) :
    m.entriesInto scope d (.node item :: rest) = m.entriesInto scope d rest := by
  match item with
  | .leaf kind _ _ =>
    cases kind with
    | key | rest => cases h
    | string | number | identifier | keyword => cases rest <;> rfl
  | .group _ _ _ => cases rest <;> rfl
  | .host _ _ _ => cases rest <;> rfl

theorem parts_other {item : Expr} (h : isPartStart item = false) (rest : List Expr) :
    parts (item :: rest) = parts rest := by
  match item with
  | .leaf kind _ _ =>
    cases kind with
    | key | rest => cases h
    | string | number | identifier | keyword => rfl
  | .group _ _ _ => rfl
  | .host _ _ _ => rfl

theorem insertText_eq (d : Dict) (key : String) (value : Value) :
    d.insertText key value = d.update (Dict.empty.insertText key value) := rfl

/-- The parts of a literal are evaluated one after the other, and what each of them gives is added
to what those before it gave. -/
theorem entriesInto_parts (items : List Expr) (d : Dict) :
    m.entriesInto scope d (items.map .node) =
      (parts items).mapM (Part.dict m scope) >>= fun ds => pure (ds.foldl Dict.update d) := by
  have hother : ∀ {item : Expr} {rest : List Expr}, isPartStart item = false →
      m.entriesInto scope d (rest.map .node) =
        (parts rest).mapM (Part.dict m scope) >>= (fun ds => pure (ds.foldl Dict.update d)) →
      m.entriesInto scope d ((item :: rest).map .node) =
        (parts (item :: rest)).mapM (Part.dict m scope) >>= fun ds =>
          pure (ds.foldl Dict.update d) := by
    intro item rest h hrest
    rw [parts_other h, List.map_cons, entriesInto_other d h]
    exact hrest
  match items with
  | [] => rfl
  | .leaf .rest name mark :: rest =>
    rw [List.map_cons, entriesInto_spread, parts, List.mapM_cons]
    simp only [Part.dict, bind_assoc, pure_bind, List.foldl_cons]
    refine bind_congr fun v => bind_congr fun own => ?_
    rw [entriesInto_parts rest, ← Dict.update_update d Dict.distinct_empty, Dict.update_empty]
  | [.leaf .key key mark] => rfl
  | .leaf .key key mark :: next :: others =>
    rw [List.map_cons, List.map_cons, entriesInto_key, parts]
    split
    · rw [List.mapM_cons, insertText_eq]
      simp only [Part.dict, bind_assoc, pure_bind, List.foldl_cons]
      exact entriesInto_parts (next :: others) _
    · rw [List.mapM_cons]
      simp only [Part.dict, bind_assoc, pure_bind, List.foldl_cons]
      refine bind_congr fun v => ?_
      rw [insertText_eq]
      exact entriesInto_parts others _
  | .leaf .string _ _ :: rest | .leaf .number _ _ :: rest | .leaf .identifier _ _ :: rest
  | .leaf .keyword _ _ :: rest | .group _ _ _ :: rest | .host _ _ _ :: rest =>
    exact hother rfl (entriesInto_parts rest d)
termination_by items.length

theorem entries_parts (items : List Expr) :
    m.entries scope (items.map .node) =
      (parts items).mapM (Part.dict m scope) >>= fun ds => pure (Dict.joined ds) :=
  entriesInto_parts items .empty

theorem distinct_of_parts {ps : List Part} : ∀ {s t : Store} {ds : List Dict},
    ps.mapM (Part.dict m scope) s = .done ds t → ∀ d ∈ ds, d.Distinct := by
  induction ps with
  | nil =>
    intro s t ds h
    cases h
    simp
  | cons part ps ih =>
    intro s t ds h
    rw [List.mapM_cons, bind_eq_done] at h
    obtain ⟨d, u, hd, h⟩ := h
    rw [bind_eq_done] at h
    obtain ⟨rest, w, hrest, h⟩ := h
    cases h
    intro a ha
    rcases List.mem_cons.mp ha with rfl | ha
    · exact Part.dict_distinct hd
    · exact ih hrest a ha

/-- Object literals compose. Cut in two before a key or a spread, a literal gives what its first
part gives, updated with what its second part gives. Under each key stands what the last part that
has it gives, and a key before another key, a spread or the end is void. -/
theorem entries_spec (m : Machine) (scope : Value) :
    (∀ xs ys : List Value, BeginEntry ys → m.entries scope (xs ++ ys) = do
      let a ← m.entries scope xs
      let b ← m.entries scope ys
      return a.update b) ∧
    (∀ (items : List Expr) (s t : Store) (d : Dict),
      m.entries scope (items.map .node) s = .done d t →
        ∃ ds, (parts items).mapM (Part.dict m scope) s = .done ds t ∧
          ∀ hash, d.get? hash = ds.reverse.findSome? (·.get? hash)) ∧
    ∀ (key : String) (mark : Mark) (ys : List Value), BeginEntry ys →
      m.entries scope (.node (.leaf .key key mark) :: ys) = do
        let b ← m.entries scope ys
        return (Dict.empty.insertText key .undefined).update b := by
  refine ⟨fun xs ys hys => entries_append hys xs, fun items s t d h => ?_,
    fun key mark ys hys => entries_flag key mark hys⟩
  rw [entries_parts, bind_eq_done] at h
  obtain ⟨ds, u, hds, h⟩ := h
  cases h
  exact ⟨ds, hds, fun hash => Dict.get?_joined (distinct_of_parts hds) hash⟩

/-- A key with a value. -/
def sampleStart : List Value :=
  [.node (.leaf .key "a" default), .node (.leaf .string "first" default)]

/-- A key without a value, and the first key again. -/
def sampleEnd : List Value :=
  [.node (.leaf .key "b" default), .node (.leaf .key "a" default),
    .node (.leaf .string "last" default)]

/-- A key that is given again has the last value in the first place. -/
theorem entries_spec_again :
    BeginEntry sampleEnd ∧
    ((machine 2).entries .nil (sampleStart ++ sampleEnd) = do
      let a ← (machine 2).entries .nil sampleStart
      let b ← (machine 2).entries .nil sampleEnd
      return a.update b) ∧
    (machine 2).entries .nil (sampleStart ++ sampleEnd) (.empty []) =
      .done ⟨[⟨Key.ofText "a", .str "a", .str "last"⟩, ⟨Key.ofText "b", .str "b", .undefined⟩]⟩
        (.empty []) := by
  have hbegin : BeginEntry sampleEnd := ⟨_, rfl, .inl rfl⟩
  exact ⟨hbegin, (entries_spec (machine 2) .nil).1 sampleStart sampleEnd hbegin, rfl⟩

end Lisplet.Machine
