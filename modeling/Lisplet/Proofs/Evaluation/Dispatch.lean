import Lisplet.Proofs.Evaluation.Literals
import Lisplet.Proofs.Property.Mild
import Lisplet.Proofs.Property.Total

/-!
# Nodes that have no value

The only node that has no value is a root. An action is never stuck if no error that leaves it says
that a node has no value. Reading names and properties is never stuck, so that evaluating a node
other than a root is not either, unless what it hands on is: its items, or the call that it is.

Main statement: `evalNode_neverStuck`.
-/

namespace Lisplet

namespace Action

variable {α β : Type}

/-- No error that leaves the action says that a node has no value. -/
def NeverStuck (a : Action α) : Prop :=
  ∀ s e t, a s = .failed e t → ∀ shown, e.fault ≠ .notEvaluable shown

namespace NeverStuck

variable {a : Action α}

theorem of_total (ha : Total a) : NeverStuck a := by
  intro s e t h
  obtain ⟨v, u, hv⟩ := ha s
  rw [hv] at h
  cases h

theorem ret (v : α) : NeverStuck (pure v) := .of_total (.ret v)

theorem gets (f : Store → α) : NeverStuck (Action.gets f) := .of_total (.gets f)

theorem update (f : Store → Store) : NeverStuck (Action.update f) := fun s _ _ h => by cases h

theorem exhausted : NeverStuck (Action.exhausted : Action α) := fun s _ _ h => by cases h

theorem within (f : Store → Option α) : NeverStuck (Action.within f) := by
  intro s e t h
  unfold Action.within at h
  split at h <;> cases h

/-- Errors of other classes do not speak of nodes. -/
theorem raise {fault : Fault} (h : fault.kind ≠ .invalidNode) :
    NeverStuck (Action.raise fault : Action α) := by
  intro s e t hfail shown heq
  cases hfail
  have hfault : fault = .notEvaluable shown := heq
  exact h (by rw [hfault]; rfl)

theorem bind {f : α → Action β} (ha : NeverStuck a) (hf : ∀ v, NeverStuck (f v)) :
    NeverStuck (a >>= f) := by
  intro s e t h
  rcases bind_eq_failed.mp h with h | ⟨v, u, -, h⟩
  · exact ha s e t h
  · exact hf v u e t h

theorem map {g : α → β} (ha : NeverStuck a) : NeverStuck (g <$> a) := ha.bind fun v => ret (g v)

theorem mapM {γ : Type} {f : γ → Action β} {xs : List γ} (hf : ∀ x ∈ xs, NeverStuck (f x)) :
    NeverStuck (xs.mapM f) := by
  induction xs with
  | nil => exact ret _
  | cons x xs ih =>
    rw [List.mapM_cons]
    exact (hf x List.mem_cons_self).bind fun _ =>
      (ih fun y hy => hf y (List.mem_cons_of_mem x hy)).bind fun _ => ret _

theorem compute {g : Store → Except Fault α} {kinds : List ErrorKind}
    (hg : ∀ s, ErrorsAmong kinds (g s)) (hk : .invalidNode ∉ kinds) :
    NeverStuck (Action.compute g) := by
  intro s
  have hraise : ∀ fault, g s = .error fault → fault.kind ≠ .invalidNode :=
    fun fault hfault hkind => hk (hkind ▸ (hg s fault hfault).1)
  unfold Action.compute
  intro e t h shown heq
  cases hgs : g s with
  | ok v =>
    rw [hgs] at h
    cases h
  | error fault =>
    rw [hgs] at h
    exact raise (hraise fault hgs) s e t h shown heq

theorem keyOf (v : Value) : NeverStuck (Action.keyOf v) := by
  unfold Action.keyOf
  split
  · exact ret _
  · exact raise (by simp [Fault.kind])

theorem shown (v : Value) : NeverStuck (Action.compute (·.shown v)) :=
  compute (fun s => s.shown_errors v) (by decide)

theorem plain (v : Value) : NeverStuck (Action.compute (·.plain v)) :=
  compute (fun s => s.plain_errors v) (by decide)

theorem anyEqual (value : Value) (items : List Value) :
    NeverStuck (Action.anyEqual value items) := by
  induction items with
  | nil => exact ret _
  | cons item items ih =>
    refine (within _).bind fun found => ?_
    split
    · exact ret _
    · exact ih

theorem anyTaken (r : IteratorRef) (value : Value) (items : List Value) :
    NeverStuck (Action.anyTaken r value items) := by
  induction items with
  | nil => exact ret _
  | cons item items ih =>
    refine (update _).bind fun _ => (within _).bind fun found => ?_
    split
    · exact ret _
    · exact ih

theorem contains (container value : Value) : NeverStuck (Action.contains container value) := by
  have hbytes : ∀ data, NeverStuck (Action.containsBytes data value) := by
    intro data
    unfold Action.containsBytes
    split
    · exact ret _
    · split
      · exact ret _
      · exact raise (by simp [Fault.kind])
    · exact raise (by simp [Fault.kind])
  unfold Action.contains
  split
  · exact (gets _).bind fun _ => anyEqual value _
  · exact anyEqual value _
  · exact (keyOf value).bind fun _ => (gets _).bind fun _ => ret _
  · exact (keyOf value).bind fun _ => ret _
  · exact hbytes _
  · exact (gets _).bind fun _ => anyTaken _ value _
  · split
    · unfold Action.containsText
      split
      · exact ret _
      · exact raise (by simp [Fault.kind])
    · exact raise (by simp [Fault.kind])

theorem subscript (container key : Value) : NeverStuck (Action.subscript container key) := by
  have hposition : ∀ (name complaint : String) (items : List Value),
      NeverStuck (Action.atPosition name complaint items key) := by
    intro name complaint items
    unfold Action.atPosition
    split
    · exact raise (by simp [Fault.kind])
    · dsimp only
      split
      · exact raise (by simp [Fault.kind])
      · split
        · exact ret _
        · exact raise (by simp [Fault.kind])
  unfold Action.subscript
  dsimp only
  split
  · exact (gets _).bind fun _ => hposition _ _ _
  · exact hposition _ _ _
  · exact hposition _ _ _
  · refine (gets _).bind fun _ => (keyOf key).bind fun _ => ?_
    split
    · exact ret _
    · exact raise (by simp [Fault.kind])
  · split
    · exact hposition _ _ _
    · unfold Action.noPositions
      split <;> exact raise (by simp [Fault.kind])

end NeverStuck

end Action

/-! ## Properties -/

namespace Property

open Lisplet.Action

theorem member_neverStuck (v : Value) (name : String) : NeverStuck (member v name) := by
  refine (NeverStuck.of_total (attribute?_total v name)).bind fun found => ?_
  split
  · exact .ret _
  · exact .raise (by simp [Store.missingAttribute_kind])

theorem guardName_neverStuck (name : String) : NeverStuck (guardName name) := by
  refine (NeverStuck.gets _).bind fun denylist => ?_
  split
  · exact .raise (by simp [Fault.kind])
  · exact .ret _

theorem guardKey_neverStuck (key : Value) : NeverStuck (guardKey key) := by
  unfold guardKey
  split
  · refine (guardName_neverStuck _).bind fun _ => ?_
    split
    · exact .raise (by simp [Fault.kind])
    · exact .ret _
  · exact .ret _

theorem guardValue_neverStuck (name : Value) : NeverStuck (guardValue name) := by
  unfold guardValue
  split
  · exact guardName_neverStuck _
  · exact (NeverStuck.keyOf name).map

theorem textMethod_neverStuck (text key : Value) : NeverStuck (textMethod text key) := by
  unfold textMethod
  split
  · exact .ret _
  · split
    · exact member_neverStuck text _
    · refine (NeverStuck.of_total (hasAttribute_total text _)).bind fun found => ?_
      split
      · exact .raise (by simp [Fault.kind])
      · exact .ret _

theorem sequenceMethod?_neverStuck (sequence key : Value) :
    NeverStuck (sequenceMethod? sequence key) := by
  refine (NeverStuck.keyOf key).bind fun _ => ?_
  split
  · exact .of_total ((newTuple_total _).bind fun _ => (Total.make _).bind fun _ =>
      (newFunction_total _).map _)
  · exact .ret _

theorem indexOf_neverStuck (key : Value) : NeverStuck (Action.ofExcept (index? key)) := by
  intro s e t h
  cases hindex : index? key with
  | ok index =>
    rw [hindex] at h
    cases h
  | error fault =>
    rw [hindex] at h
    have hkind : fault.kind = .value := by simpa using (index?_errors key fault hindex).1
    exact NeverStuck.raise (α := Option Int) (by rw [hkind]; decide) s e t h

theorem ofSequence_neverStuck (v : Value) (items : Array Value) (key : Value) :
    NeverStuck (ofSequence v items key) := by
  refine (indexOf_neverStuck key).bind fun index => ?_
  split
  · exact .ret _
  · split
    · exact .ret _
    · refine (sequenceMethod?_neverStuck v key).bind fun method => ?_
      split
      · exact .ret _
      · exact .of_total (attributeOf_total v key)

theorem ofText_neverStuck (v : Value) (text : String) (key : Value) :
    NeverStuck (ofText v text key) := by
  refine (indexOf_neverStuck key).bind fun index => ?_
  split
  · exact .ret _
  · split
    · exact .ret _
    · exact textMethod_neverStuck v key

theorem get_neverStuck (v key : Value) : NeverStuck (get v key) := by
  refine (guardKey_neverStuck key).bind fun _ => ?_
  split
  · exact (NeverStuck.shown key).bind fun _ => (NeverStuck.shown _).bind fun _ =>
      .raise (by simp [Fault.kind])
  · exact (NeverStuck.shown key).bind fun _ => (NeverStuck.shown _).bind fun _ =>
      .raise (by simp [Fault.kind])
  · exact (NeverStuck.keyOf key).bind fun _ => (NeverStuck.gets _).bind fun _ => .ret _
  · exact (NeverStuck.gets _).bind fun _ => ofSequence_neverStuck _ _ key
  · exact ofSequence_neverStuck _ _ key
  · exact ofText_neverStuck _ _ key
  · exact ofText_neverStuck _ _ key
  · exact .of_total (attributeOf_total _ key)

theorem getPath_neverStuck (path : List Value) : ∀ v, NeverStuck (getPath v path) := by
  induction path with
  | nil => exact fun v => .ret v
  | cons key path ih => exact fun v => (get_neverStuck v key).bind ih

theorem own_neverStuck (v : Value) : NeverStuck (own v) := by
  unfold own
  split
  case h_1 | h_2 | h_7 | h_8 | h_9 => exact (NeverStuck.gets _).bind fun _ => .ret _
  all_goals exact .ret _

end Property

/-! ## Names -/

open Lisplet.Action

theorem Value.varsOf_neverStuck (v : Value) : NeverStuck v.varsOf := by
  unfold Value.varsOf
  split
  · exact .gets _
  · exact Property.member_neverStuck _ _

theorem Value.parentOf_neverStuck (v : Value) : NeverStuck v.parentOf := by
  unfold Value.parentOf
  split
  · exact .gets _
  · exact Property.member_neverStuck _ _

theorem holderWithin_neverStuck (name : Value) (fuel : Nat) :
    ∀ scope, NeverStuck (holderWithin name fuel scope) := by
  induction fuel with
  | zero => exact fun _ => .exhausted
  | succ fuel ih =>
    intro scope
    unfold holderWithin
    split
    · exact .ret _
    · refine (Value.varsOf_neverStuck _).bind fun vars => (NeverStuck.contains vars name).bind
        fun found => ?_
      split
      · exact .ret _
      · exact (Value.parentOf_neverStuck _).bind ih

namespace ScopeRef

theorem isDefined_neverStuck (r : ScopeRef) (name : Value) : NeverStuck (r.isDefined name) :=
  ((NeverStuck.gets _).bind fun _ => holderWithin_neverStuck name _ _).map

theorem getVar_neverStuck (r : ScopeRef) (name : Value) : NeverStuck (r.getVar name) := by
  refine (Property.guardValue_neverStuck name).bind fun _ => NeverStuck.bind
    ((NeverStuck.gets _).bind fun _ => holderWithin_neverStuck name _ _) fun vars => ?_
  split
  · exact .subscript _ name
  · exact .ret _

theorem getAt_neverStuck (r : ScopeRef) (base : Value) (path : List Value) :
    NeverStuck (r.getAt base path) := by
  refine (Property.guardValue_neverStuck base).bind fun _ => (r.isDefined_neverStuck base).bind
    fun found => ?_
  split
  · exact (r.getVar_neverStuck base).bind (Property.getPath_neverStuck path)
  · exact (NeverStuck.plain base).bind fun _ => .raise (by simp [Fault.kind])

end ScopeRef

namespace Machine

variable {m : Machine} (r : ScopeRef)

theorem lookup_neverStuck (name : String) :
    Action.NeverStuck (m.lookup (.scope r) (.str name)) :=
  ScopeRef.getAt_neverStuck _ _ _

/-! ## Literals -/

theorem spread_neverStuck (name : String) :
    Action.NeverStuck (m.spread (.scope r) (.str name)) := by
  refine (lookup_neverStuck r name).bind fun v => ?_
  split
  · exact (NeverStuck.gets _).bind fun _ => .ret _
  · exact .ret _
  · split
    · exact .ret _
    · exact (NeverStuck.plain _).bind fun _ => .raise (by simp [Fault.kind])

theorem elements_neverStuck {items : List Expr}
    (h : ∀ item ∈ items, Action.NeverStuck (m.eval (.scope r) (.node item))) :
    Action.NeverStuck (m.elements (.scope r) (items.map .node)) := by
  induction items with
  | nil => exact .ret _
  | cons item items ih =>
    have hitem : Action.NeverStuck (m.itemElements (.scope r) (.node item)) := by
      unfold itemElements
      rw [Operand.isA_node, pure_bind]
      split
      · next hrest =>
        obtain ⟨name, mark, rfl⟩ := Node.exists_leaf_of_kind (eq_of_beq hrest)
        exact spread_neverStuck r name
      · exact (h item List.mem_cons_self).bind fun _ => .ret _
    exact hitem.bind fun _ => (ih fun item hmem => h item (List.mem_cons_of_mem _ hmem)).bind
      fun _ => .ret _

/-- The values of a literal are among its nodes. -/
theorem mem_of_mem_parts {key : String} {value : Expr} {items : List Expr}
    (h : .entry key (some value) ∈ parts items) : value ∈ items := by
  have hother : ∀ {item : Expr} {rest : List Expr}, isPartStart item = false →
      (.entry key (some value) ∈ parts rest → value ∈ rest) →
      .entry key (some value) ∈ parts (item :: rest) → value ∈ item :: rest := by
    intro item rest hitem hrest h
    rw [parts_other hitem] at h
    exact List.mem_cons_of_mem _ (hrest h)
  match items with
  | [] => cases h
  | .leaf .rest name mark :: rest =>
    rw [parts, List.mem_cons] at h
    rcases h with h | h
    · cases h
    · exact List.mem_cons_of_mem _ (mem_of_mem_parts h)
  | [.leaf .key other mark] =>
    rw [parts, List.mem_singleton] at h
    cases h
  | .leaf .key other mark :: next :: others =>
    rw [parts] at h
    split at h
    · rcases List.mem_cons.mp h with h | h
      · cases h
      · exact List.mem_cons_of_mem _ (mem_of_mem_parts h)
    · rcases List.mem_cons.mp h with h | h
      · cases h
        exact List.mem_cons_of_mem _ List.mem_cons_self
      · exact List.mem_cons_of_mem _ (List.mem_cons_of_mem _ (mem_of_mem_parts h))
  | .leaf .string _ _ :: rest | .leaf .number _ _ :: rest | .leaf .identifier _ _ :: rest
  | .leaf .keyword _ _ :: rest | .group _ _ _ :: rest | .host _ _ _ :: rest =>
    exact hother rfl mem_of_mem_parts h
termination_by items.length

theorem entries_neverStuck {items : List Expr}
    (h : ∀ item ∈ items, Action.NeverStuck (m.eval (.scope r) (.node item))) :
    Action.NeverStuck (m.entries (.scope r) (items.map .node)) := by
  rw [entries_parts]
  refine (NeverStuck.mapM fun part hpart => ?_).bind fun _ => .ret _
  match part with
  | .spread name =>
    exact (lookup_neverStuck r name).bind fun v => (Property.own_neverStuck v).bind
      fun own => .ret _
  | .entry key none => exact .ret _
  | .entry key (some value) =>
    exact (h value (mem_of_mem_parts hpart)).bind fun v => .ret _

/-! ## Evaluation -/

theorem numberOf_neverStuck (text : String) : Action.NeverStuck (numberOf text) := by
  unfold numberOf
  split
  · exact .ret _
  · unfold newFloat
    split
    · exact NeverStuck.bind (.of_total (.make _)) fun _ => .ret _
    · exact .ret _
  · exact .raise (by simp [Property.numeralFault, Fault.kind])

theorem keywordValue_neverStuck (text : String) : Action.NeverStuck (keywordValue text) := by
  unfold keywordValue
  split
  case h_5 => exact .raise (by simp [Fault.kind])
  all_goals exact .ret _

/-- What evaluating a node hands on is never stuck: the call of a call, and else the evaluation of
its items. -/
def HandsOn (m : Machine) (scope : Value) : Expr → Prop
  | .group .call (head :: operands) mark =>
    Action.NeverStuck (m.apply scope (.node head) (operands.map .node) (.int mark.line))
  | .group _ items _ => ∀ item ∈ items, Action.NeverStuck (m.eval scope (.node item))
  | _ => True

/-- Evaluating a node other than a root is never stuck by itself. -/
theorem evalNode_neverStuck {n : Expr} (hn : n.kind ≠ .group .root)
    (h : m.HandsOn (.scope r) n) : Action.NeverStuck (m.evalNode (.scope r) n) := by
  match n with
  | .host v _ _ => exact .ret v
  | .leaf .string text _ => exact .ret _
  | .leaf .number text _ => exact numberOf_neverStuck text
  | .leaf .key _ _ | .leaf .rest _ _ => exact .ret _
  | .leaf .keyword text _ => exact keywordValue_neverStuck text
  | .leaf .identifier name _ => exact lookup_neverStuck r name
  | .group .array items _ =>
    exact (elements_neverStuck r h).bind fun _ => NeverStuck.of_total
      ((Total.make _).bind fun _ => .ret _)
  | .group .object items _ =>
    exact (entries_neverStuck r h).bind fun _ => NeverStuck.of_total
      ((Total.make _).bind fun _ => .ret _)
  | .group .call [] mark =>
    intro s e t hfail shown heq
    cases hfail
    cases heq
  | .group .call (head :: operands) mark => exact h
  | .group .root _ _ => exact absurd rfl hn

end Machine

end Lisplet
