import Lisplet.Evaluation.Eval
import Lisplet.Proofs.Errors.Methods

/-!
# Machines that are related step by step

What is written against a machine only puts together operations of the machine and actions of its
own, which are candid. A relation between actions that holds of candid actions and is respected by
sequencing is therefore passed on from the operations of two machines to all that is written against
them. The one exception is the search for a value in a sequence, which catches errors.
-/

namespace Lisplet

open Lisplet.Action

/-- A relation between actions that every candid action has to itself and sequencing respects. -/
structure Congruence where
  rel : {α : Type} → Action α → Action α → Prop
  candid : ∀ {α : Type} {a : Action α}, Candid a → rel a a
  bind : ∀ {α β : Type} {a b : Action α} {f g : α → Action β},
    rel a b → (∀ v, rel (f v) (g v)) → rel (a >>= f) (b >>= g)

namespace Congruence

variable (R : Congruence) {α β : Type}

theorem ret (v : α) : R.rel (pure v) (pure v) := R.candid (.ret v)

/-- What comes after a candid action. -/
theorem after {a : Action α} {f g : α → Action β} (ha : Candid a) (h : ∀ v, R.rel (f v) (g v)) :
    R.rel (a >>= f) (a >>= g) :=
  R.bind (R.candid ha) h

theorem discard {a b : Action α} (h : R.rel a b) :
    R.rel (Functor.discard a) (Functor.discard b) :=
  R.bind h fun _ => R.ret _

end Congruence

/-- The operations of two machines are related, and so are their loops if the rounds are. -/
structure Machine.Related (R : Congruence) (m m' : Machine) : Prop where
  fold : ∀ {σ : Type} {step step' : Value → σ → Action (ForInStep σ)},
    (∀ v acc, R.rel (step v acc) (step' v acc)) →
      ∀ c acc, R.rel (Cursor.fold step m.fuel c acc) (Cursor.fold step' m'.fuel c acc)
  eval : ∀ scope operand, R.rel (m.eval scope operand) (m'.eval scope operand)
  invoke : ∀ scope f operands, R.rel (m.invoke scope f operands) (m'.invoke scope f operands)
  call : ∀ f args, R.rel (m.call f args) (m'.call f args)
  apply : ∀ scope head operands line,
    R.rel (m.apply scope head operands line) (m'.apply scope head operands line)

variable {R : Congruence} {m m' : Machine}

namespace Machine

/-! ## Scopes -/

theorem checkAssignable_candid (scope : Value) : Candid (checkAssignable scope) := by
  unfold checkAssignable
  split
  · exact .ret _
  · exact (Property.member_candid _ _).discard

theorem segments_related (h : m.Related R m') (name : Value) :
    R.rel (m.segments name) (m'.segments name) := by
  unfold segments
  split
  · exact R.ret _
  · refine R.after (Property.member_candid _ _) fun method => ?_
    refine R.bind (h.call method _) fun parts => R.candid ?_
    split
    · refine (Candid.elements _).bind fun items => ?_
      split
      · exact .ret _
      · exact .raise _
    · refine (Candid.elements _).bind fun items => ?_
      split
      · exact .ret _
      · exact .raise _
    · exact .raise _

theorem lookup_related (h : m.Related R m') (scope name : Value) :
    R.rel (m.lookup scope name) (m'.lookup scope name) := by
  cases scope with
  | scope r =>
    exact R.bind (segments_related h name) fun _ => R.candid (ScopeRef.getAt_candid _ _ _)
  | dict d =>
    refine R.after (Reads.keyOf name).candid fun key => ?_
    exact R.after (.gets _) fun _ => R.ret _
  | _ => exact R.after (Property.member_candid _ _) fun method => h.call method [name]

theorem assign_related (h : m.Related R m') (scope name value : Value) :
    R.rel (m.assign scope name value) (m'.assign scope name value) := by
  cases scope with
  | scope r =>
    exact R.bind (segments_related h name) fun _ => R.candid (ScopeRef.setAt_candid _ _ _ _)
  | _ => exact R.after (Property.member_candid _ _) fun method => h.call method [name, value]

theorem isReadOnly_related (h : m.Related R m') (scope name : Value) :
    R.rel (m.isReadOnly scope name) (m'.isReadOnly scope name) := by
  cases scope with
  | scope r => exact R.candid (r.isReadOnly_candid name)
  | _ =>
    refine R.after (Property.member_candid _ _) fun method => ?_
    exact R.bind (h.call method _) fun _ => R.candid (.gets _)

/-! ## Several operands -/

theorem evalAll_related (h : m.Related R m') (scope : Value) (operands : List Value) :
    R.rel (m.evalAll scope operands) (m'.evalAll scope operands) := by
  induction operands with
  | nil => exact R.ret []
  | cons operand rest ih =>
    exact R.bind (h.eval scope operand) fun _ => R.bind ih fun _ => R.ret _

theorem spread_related (h : m.Related R m') (scope name : Value) :
    R.rel (m.spread scope name) (m'.spread scope name) := by
  refine R.bind (lookup_related h scope name) fun v => R.candid ?_
  split
  · exact (Candid.gets _).bind fun _ => .ret _
  · exact .ret _
  · split
    · exact .ret _
    · exact (Candid.compute _).bind fun _ => .raise _

theorem itemElements_related (h : m.Related R m') (scope item : Value) :
    R.rel (m.itemElements scope item) (m'.itemElements scope item) := by
  refine R.after (Operand.isA_candid _ item) fun isRest => ?_
  split
  · exact R.after (Operand.content_candid item) fun name => spread_related h scope name
  · exact R.bind (h.eval scope item) fun _ => R.ret _

theorem elements_related (h : m.Related R m') (scope : Value) (items : List Value) :
    R.rel (m.elements scope items) (m'.elements scope items) := by
  induction items with
  | nil => exact R.ret []
  | cons item rest ih =>
    exact R.bind (itemElements_related h scope item) fun _ => R.bind ih fun _ => R.ret _

theorem insertInto_candid (d : Dict) (key value : Value) : Candid (insertInto d key value) :=
  (Reads.keyOf key).candid.bind fun _ => .ret _

theorem beginsEntry_candid (item : Value) : Candid (beginsEntry item) := by
  unfold beginsEntry
  split
  · exact .ret _
  · exact (Operand.kind_candid _).bind fun _ => .ret _

theorem entriesInto_related (h : m.Related R m') (scope : Value) :
    ∀ (items : List Value) (d : Dict),
    R.rel (m.entriesInto scope d items) (m'.entriesInto scope d items)
  | [], d => R.ret d
  | item :: rest, d => by
    unfold entriesInto
    refine R.after (Operand.kind_candid item) fun kind => ?_
    split
    · refine R.after (Operand.content_candid item) fun name => ?_
      refine R.bind (lookup_related h scope name) fun v => ?_
      exact R.after (Property.own_candid v) fun _ => entriesInto_related h scope rest _
    · split
      · cases rest with
        | nil =>
          refine R.after (Operand.content_candid item) fun key => ?_
          exact R.candid (insertInto_candid d key _)
        | cons next others =>
          refine R.after (beginsEntry_candid next) fun isNext => ?_
          split
          · refine R.after (Operand.content_candid item) fun key => ?_
            refine R.after (insertInto_candid d key _) fun d => ?_
            exact entriesInto_related h scope (next :: others) d
          · refine R.bind (h.eval scope next) fun v => ?_
            refine R.after (Operand.content_candid item) fun key => ?_
            refine R.after (insertInto_candid d key v) fun d => ?_
            exact entriesInto_related h scope others d
      · exact entriesInto_related h scope rest d

theorem entries_related (h : m.Related R m') (scope : Value) (items : List Value) :
    R.rel (m.entries scope items) (m'.entries scope items) :=
  entriesInto_related h scope items .empty

/-! ## Applications -/

theorem headName_candid (head : Value) : Candid (headName head) := by
  refine (Operand.content_candid head).bind fun content => ?_
  split
  · exact .compute _
  · exact Operand.kindText_candid head

theorem headValue_related (h : m.Related R m') (scope head : Value) :
    R.rel (m.headValue scope head) (m'.headValue scope head) := by
  refine R.after (Operand.isA_candid _ head) fun isName => ?_
  split
  · exact R.after (Operand.content_candid head) fun name => lookup_related h scope name
  · exact h.eval scope head

theorem application_related (h : m.Related R m') (scope head : Value) (operands : List Value) :
    R.rel (m.application scope head operands) (m'.application scope head operands) := by
  refine R.bind (headValue_related h scope head) fun f => ?_
  split
  · exact h.invoke scope f operands
  · split
    · exact R.bind (elements_related h scope operands) fun args => h.call f args
    · exact R.after (headName_candid head) fun _ => R.candid (.raise _)

end Machine

/-! ## Folds -/

theorem Cursor.next?_candid (c : Cursor) : Candid c.next? := by
  cases c with
  | list r i => exact (Candid.gets _).bind fun _ => .ret _
  | iterator r =>
    refine (Candid.gets _).bind fun items => ?_
    cases items with
    | nil => exact .ret _
    | cons v rest => exact Candid.bind (.update fun _ => rfl) fun _ => .ret _
  | dict r i size =>
    refine (Candid.gets _).bind fun d => ?_
    split
    · exact .raise _
    · exact .ret _

section Fold

variable {σ : Type} {step step' : Value → σ → Action (ForInStep σ)}
  (hstep : ∀ v acc, R.rel (step v acc) (step' v acc))

include hstep

/-- Two loops of so many rounds are related if their rounds are. -/
theorem Cursor.fold_related (fuel : Nat) (c : Cursor) (acc : σ) :
    R.rel (fold step fuel c acc) (fold step' fuel c acc) := by
  induction fuel generalizing c acc with
  | zero => exact R.candid Action.Reads.exhausted.candid
  | succ fuel ih =>
    refine R.after (next?_candid c) fun next => ?_
    split
    · exact R.ret acc
    · refine R.bind (hstep _ acc) fun round => ?_
      split
      · exact R.ret _
      · exact ih _ _

theorem foldItems_related (items : List Value) (acc : σ) :
    R.rel (foldItems step items acc) (foldItems step' items acc) := by
  induction items generalizing acc with
  | nil => exact R.ret acc
  | cons v rest ih =>
    refine R.bind (hstep v acc) fun round => ?_
    split
    · exact R.ret _
    · exact ih _

theorem Machine.foldElements_related (h : m.Related R m') (v : Value) (init : σ) :
    R.rel (m.foldElements v init step) (m'.foldElements v init step') := by
  unfold foldElements
  split
  · exact h.fold hstep _ init
  · exact h.fold hstep _ init
  · exact R.after (.gets _) fun _ => h.fold hstep _ init
  · exact R.after (.compute _) fun items => foldItems_related hstep items init

end Fold

theorem Machine.block_related (h : m.Related R m') (scope body : Value) :
    R.rel (m.block scope body) (m'.block scope body) :=
  foldElements_related (fun operand _ => R.bind (h.eval scope operand) fun _ => R.candid (.ret _))
    h body _

/-! ## Patterns -/

namespace Pattern

theorem Source.elements_candid (source : Source) : Candid source.elements := by
  cases source with
  | list r => exact (Candid.gets _).bind fun _ => .ret _
  | fixed items => exact .ret items

theorem sourceOf_candid (v : Value) : Candid (sourceOf v) := by
  unfold sourceOf
  split
  · exact .ret _
  · split
    · exact (Candid.elements _).bind fun _ => .ret _
    · exact (Candid.compute _).bind fun _ => .raise _

theorem bindPosition_related (h : m.Related R m') (scope : Value) (source : Source) (item : Value)
    (i : Nat) :
    R.rel (bindPosition m scope source item i) (bindPosition m' scope source item i) := by
  refine R.after (Operand.kind_candid item) fun kind => ?_
  split
  · refine R.after source.elements_candid fun items => ?_
    refine R.after (Operand.content_candid item) fun name => ?_
    exact R.bind (Machine.assign_related h scope name _) fun _ => R.ret _
  · split
    · refine R.after source.elements_candid fun items => ?_
      refine R.after (.newList _) fun rest => ?_
      refine R.after (Operand.content_candid item) fun name => ?_
      exact R.bind (Machine.assign_related h scope name rest) fun _ => R.ret _
    · exact R.ret _

theorem bindArray_related (h : m.Related R m') (scope items v : Value) :
    R.rel (bindArray m scope items v) (bindArray m' scope items v) := by
  refine R.after (sourceOf_candid v) fun source => ?_
  exact R.discard (Machine.foldElements_related (bindPosition_related h scope source) h items 0)

theorem bindProperty_related (h : m.Related R m') (scope v item : Value) (selected : List Key) :
    R.rel (bindProperty m scope v item selected) (bindProperty m' scope v item selected) := by
  refine R.after (Operand.kind_candid item) fun kind => ?_
  split
  · refine R.after (Operand.content_candid item) fun name => ?_
    refine R.after ((Reads.keyOf name).candid) fun key => ?_
    refine R.after (Machine.checkAssignable_candid scope) fun _ => ?_
    refine R.after (Property.get_candid v name) fun part => ?_
    exact R.bind (Machine.assign_related h scope name part) fun _ => R.ret _
  · split
    · refine R.after (Property.own_candid v) fun own => ?_
      refine R.after (.newDict _) fun rest => ?_
      refine R.after (Operand.content_candid item) fun name => ?_
      exact R.bind (Machine.assign_related h scope name rest) fun _ => R.ret _
    · exact R.ret _

theorem bindObject_related (h : m.Related R m') (scope items v : Value) :
    R.rel (bindObject m scope items v) (bindObject m' scope items v) :=
  R.discard (Machine.foldElements_related (bindProperty_related h scope v) h items [])

theorem bindTarget_related (h : m.Related R m') (scope target v : Value) :
    R.rel (bindTarget m scope target v) (bindTarget m' scope target v) := by
  refine R.after (Operand.kind_candid target) fun kind => ?_
  split
  · refine R.after (Operand.content_candid target) fun items => ?_
    exact R.bind (bindArray_related h scope items v) fun _ => R.ret _
  · split
    · refine R.after (Operand.content_candid target) fun items => ?_
      exact R.bind (bindObject_related h scope items v) fun _ => R.ret _
    · split
      · exact R.after (Operand.content_candid target) fun name =>
          Machine.assign_related h scope name v
      · exact R.after (Operand.described_candid target) fun _ => R.candid (.raise _)

end Pattern

/-! ## Forms -/

namespace Form

theorem checkRebind_related (h : m.Related R m') (scope target : Value) :
    R.rel (checkRebind m scope target) (checkRebind m' scope target) := by
  refine R.after (Operand.isA_candid _ target) fun isName => ?_
  split
  · refine R.after (Operand.content_candid target) fun name => ?_
    refine R.bind (Machine.isReadOnly_related h scope name) fun readOnly => ?_
    split
    · exact R.after (.compute _) fun _ => R.candid (.raise _)
    · exact R.ret _
  · exact R.ret _

theorem runAssign_related (h : m.Related R m') (scope : Value) (operands : List Value) :
    R.rel (runAssign m scope operands) (runAssign m' scope operands) := by
  unfold runAssign
  split
  · exact R.candid (.raise _)
  · exact R.bind (h.eval scope _) fun v => Pattern.bindTarget_related h scope _ v

theorem runDefine_related (h : m.Related R m') (scope : Value) (operands : List Value) :
    R.rel (runDefine m scope operands) (runDefine m' scope operands) := by
  unfold runDefine
  split
  · exact R.candid (.raise _)
  · exact R.bind (checkRebind_related h scope _) fun _ => runAssign_related h scope operands

theorem makeClosure_candid (scope : Value) (operands : List Value) :
    Candid (makeClosure scope operands) := by
  unfold makeClosure
  split
  · exact .raise _
  · refine (Operand.isA_candid _ _).bind fun isParams => ?_
    split
    · refine (Candid.newTuple _).bind fun body => ?_
      exact Candid.bind (.make fun _ => rfl) fun _ => .ret _
    · exact (Operand.described_candid _).bind fun _ => .raise _

theorem runDefineFunction_related (h : m.Related R m') (scope : Value) (operands : List Value) :
    R.rel (runDefineFunction m scope operands) (runDefineFunction m' scope operands) := by
  unfold runDefineFunction
  split
  · exact R.candid (.raise _)
  · refine R.after (Operand.isA_candid _ _) fun isName => ?_
    split
    · refine R.bind (checkRebind_related h scope _) fun _ => ?_
      refine R.after (Machine.checkAssignable_candid scope) fun _ => ?_
      refine R.after (Operand.content_candid _) fun name => ?_
      refine R.after (makeClosure_candid scope _) fun closure => ?_
      exact Machine.assign_related h scope name closure
    · exact R.after (Operand.described_candid _) fun _ => R.candid (.raise _)

theorem languageFunction?_related (h : m.Related R m') (scope : Value) (operands : List Value) :
    R.rel (languageFunction? m scope operands) (languageFunction? m' scope operands) := by
  unfold languageFunction?
  split
  · exact R.ret none
  · refine R.after (Operand.isA_candid _ _) fun isParams => ?_
    extract_lets adapted
    have hadapted : ∀ fn, R.rel (adapted fn) (adapted fn) := by
      intro fn
      unfold adapted
      split
      · exact R.ret _
      · exact R.candid (.raise _)
    split
    · exact R.after (makeClosure_candid scope operands) hadapted
    · exact R.bind (h.eval scope _) hadapted

theorem runAdapt_related (h : m.Related R m') (scope : Value) (operands : List Value) :
    R.rel (runAdapt m scope operands) (runAdapt m' scope operands) := by
  refine R.bind (languageFunction?_related h scope operands) fun fn => R.candid ?_
  split
  · exact .newFunction _
  · exact .ret _

theorem printAll_candid (isFirst : Bool) (values : List Value) :
    Candid (printAll isFirst values) := by
  induction values generalizing isFirst with
  | nil => exact .write _
  | cons v rest ih =>
    unfold printAll
    extract_lets others
    have hothers : Candid (others ()) :=
      (Candid.compute _).bind fun text => (Candid.write text).bind fun _ => ih false
    split
    · exact hothers
    · exact (Candid.write _).bind fun _ => hothers

theorem runPrint_related (h : m.Related R m') (scope : Value) (operands : List Value) :
    R.rel (runPrint m scope operands) (runPrint m' scope operands) := by
  refine R.bind (Machine.evalAll_related h scope operands) fun values => ?_
  exact R.after (printAll_candid true values) fun _ => R.ret _

theorem runChoose_related (h : m.Related R m') (scope : Value) (operands : List Value) :
    R.rel (runChoose m scope operands) (runChoose m' scope operands) := by
  unfold runChoose
  split
  · exact R.candid (.raise _)
  · refine R.bind (h.eval scope _) fun v => ?_
    refine R.after (.gets _) fun truth => ?_
    split <;> exact h.eval scope _

theorem runCond_related (h : m.Related R m') (scope : Value) (operands : List Value) :
    R.rel (runCond m scope operands) (runCond m' scope operands) :=
  R.bind (Machine.elements_related h scope operands) fun _ => R.candid (.gets _)

theorem lengthOf_candid (v : Value) : Candid (lengthOf v) := by
  unfold lengthOf
  split
  · split
    · exact .ret _
    · exact .raise _
    · exact .raise _
  · split
    · exact .ret _
    · exact .raise _
  · split
    · exact .ret _
    · split
      · exact .ret _
      · exact .raise _
    · exact .raise _

theorem arrayElements_candid (v : Value) : Candid (arrayElements v) := by
  unfold arrayElements
  split
  · refine (Candid.gets _).bind fun d => ?_
    dsimp only
    split
    · exact .ret _
    · exact (lengthOf_candid _).bind fun _ => .ret _
  · split
    · exact .elements _
    · exact .ret _

theorem mapIndexed_related (h : m.Related R m') (scope fn : Value) (i : Nat) (items : List Value) :
    R.rel (mapIndexed m scope fn i items) (mapIndexed m' scope fn i items) := by
  induction items generalizing i with
  | nil => exact R.ret []
  | cons v rest ih =>
    exact R.bind (h.invoke scope fn _) fun _ => R.bind (ih (i + 1)) fun _ => R.ret _

theorem runArray_related (h : m.Related R m') (scope : Value) (operands : List Value) :
    R.rel (runArray m scope operands) (runArray m' scope operands) := by
  refine R.bind (languageFunction?_related h scope _) fun fn => ?_
  refine R.bind (h.eval scope _) fun v => ?_
  refine R.after (arrayElements_candid v) fun items => ?_
  split
  · exact R.bind (mapIndexed_related h scope _ 0 items) fun _ => R.candid (.newList _)
  · exact R.candid (.newList _)

theorem runObject_related (h : m.Related R m') (scope : Value) (operands : List Value) :
    R.rel (runObject m scope operands) (runObject m' scope operands) :=
  R.bind (Machine.entries_related h scope operands) fun _ => R.candid (.newDict _)

theorem runConstruct_related (h : m.Related R m') (scope : Value) (operands : List Value) :
    R.rel (runConstruct m scope operands) (runConstruct m' scope operands) := by
  unfold runConstruct
  split
  · exact R.candid (.raise _)
  · refine R.bind (h.eval scope _) fun constructor => ?_
    split
    · exact R.bind (Machine.elements_related h scope _) fun args => h.call constructor args
    · exact R.after (Operand.content_candid _) fun _ => R.candid (.raise _)

theorem keyToString_candid (operand : Value) : Candid (keyToString operand) := by
  unfold keyToString
  split
  · exact .ret _
  · exact .ret _
  · refine (Operand.isA_candid _ _).bind fun isKey => ?_
    split
    · refine (Operand.content_candid _).bind fun content => ?_
      refine (Operand.line_candid _).bind fun _ => ?_
      exact (Candid.compute _).bind fun _ => .ret _
    · exact .ret _

theorem keysToStrings_candid (operands : List Value) : Candid (keysToStrings operands) := by
  induction operands with
  | nil => exact .ret []
  | cons operand rest ih =>
    exact (keyToString_candid operand).bind fun _ => ih.bind fun _ => .ret _

theorem evalPath_related (h : m.Related R m') (scope : Value) (path : List Value) :
    R.rel (evalPath m scope path) (evalPath m' scope path) :=
  R.after (keysToStrings_candid path) fun keys => Machine.evalAll_related h scope keys

theorem runGetPath_related (h : m.Related R m') (scope : Value) (operands : List Value) :
    R.rel (runGetPath m scope operands) (runGetPath m' scope operands) := by
  unfold runGetPath
  split
  · exact R.candid (.raise _)
  · refine R.bind (h.eval scope _) fun v => ?_
    exact R.bind (evalPath_related h scope _) fun path => R.candid (Property.getPath_candid v path)

theorem runSetPath_related (h : m.Related R m') (scope : Value) (operands : List Value) :
    R.rel (runSetPath m scope operands) (runSetPath m' scope operands) := by
  unfold runSetPath
  dsimp only
  split
  · exact R.candid (.raise _)
  · refine R.bind (h.eval scope _) fun v => ?_
    refine R.bind (h.eval scope _) fun value => ?_
    refine R.bind (evalPath_related h scope _) fun path => ?_
    exact R.after (Property.setPath_candid v path value) fun _ => R.ret v
  · exact R.candid (.raise _)

theorem callParts?_candid (step : Value) : Candid (callParts? step) := by
  refine (Operand.content_candid step).bind fun content => ?_
  refine (Candid.gets _).bind fun truth => ?_
  split
  · refine (Reads.subscript content _).candid.bind fun head => ?_
    refine (Operand.isA_candid _ head).bind fun isName => ?_
    split
    · exact (Candid.elements content).bind fun _ => .ret _
    · exact .ret _
  · exact .ret _

theorem stepParts_candid (step : Value) : Candid (stepParts step) := by
  refine (Operand.kind_candid step).bind fun kind => ?_
  extract_lets found
  have hfound : ∀ parts, Candid (found parts) := by
    intro parts
    cases parts with
    | some parts => exact .ret parts
    | none => exact (Operand.described_candid step).bind fun _ => .raise _
  split
  · exact (callParts?_candid step).bind hfound
  · split
    · exact (Candid.ret _).bind hfound
    · exact (Candid.ret _).bind hfound

theorem notFunction_candid {α : Type} (node name : Value) :
    Candid (notFunction node name : Action α) := by
  refine (Candid.compute _).bind fun what => ?_
  intro s
  have hs := Operand.frame_candid node s
  rw [bind_apply]
  cases hframe : Operand.frame node s with
  | done frame t =>
    rw [hframe] at hs
    exact ⟨hs, .badStep what hframe, fun h => by cases h⟩
  | failed e t => rwa [hframe] at hs
  | exhausted => trivial

theorem threadThrough_related (h : m.Related R m') (scope v : Value) (steps : List Value) :
    R.rel (threadThrough m scope v steps) (threadThrough m' scope v steps) := by
  induction steps generalizing v with
  | nil => exact R.ret v
  | cons step rest ih =>
    refine R.after (stepParts_candid step) fun (node, operands) => ?_
    refine R.after (Operand.content_candid node) fun name => ?_
    refine R.after (Property.get_candid v name) fun member => ?_
    split
    · exact R.candid (notFunction_candid node name)
    · split
      · exact R.bind (h.invoke scope member operands) ih
      · refine R.bind (Machine.elements_related h scope operands) fun args => ?_
        exact R.bind (h.call member args) ih

theorem doThrough_related (h : m.Related R m') (scope v : Value) (steps : List Value) :
    R.rel (doThrough m scope v steps) (doThrough m' scope v steps) := by
  induction steps generalizing v with
  | nil => exact R.ret v
  | cons step rest ih =>
    refine R.after (stepParts_candid step) fun (node, operands) => ?_
    refine R.after (Operand.content_candid node) fun name => ?_
    refine R.bind (Machine.lookup_related h scope name) fun f => ?_
    split
    · exact R.candid (notFunction_candid node name)
    · refine R.after (Operand.line_candid step) fun line => ?_
      exact R.bind (h.apply scope node _ line) ih

theorem runThread_related (h : m.Related R m') (scope : Value) (operands : List Value) :
    R.rel (runThread m scope operands) (runThread m' scope operands) := by
  unfold runThread
  split
  · exact R.candid (.raise _)
  · exact R.bind (h.eval scope _) fun v => threadThrough_related h scope v _

theorem runDoto_related (h : m.Related R m') (scope : Value) (operands : List Value) :
    R.rel (runDoto m scope operands) (runDoto m' scope operands) := by
  unfold runDoto
  split
  · exact R.candid (.raise _)
  · exact R.bind (h.eval scope _) fun v => doThrough_related h scope v _

theorem foldOperands_related (h : m.Related R m') (scope : Value) (op : Operator) (acc : Value)
    (operands : List Value) :
    R.rel (foldOperands m scope op acc operands) (foldOperands m' scope op acc operands) := by
  induction operands generalizing acc with
  | nil => exact R.ret acc
  | cons operand rest ih =>
    refine R.bind (h.eval scope operand) fun v => ?_
    exact R.after (op.apply_candid acc v) ih

theorem runOperator_related (h : m.Related R m') (scope : Value) (op : Operator)
    (operands : List Value) :
    R.rel (runOperator m scope op operands)
      (runOperator m' scope op operands) := by
  cases operands with
  | nil => exact R.ret _
  | cons first rest =>
    exact R.bind (h.eval scope first) fun acc => foldOperands_related h scope op acc rest

theorem runNegate_related (h : m.Related R m') (scope : Value) (operands : List Value) :
    R.rel (runNegate m scope operands) (runNegate m' scope operands) := by
  unfold runNegate
  split
  · exact R.candid (.raise _)
  · refine R.bind (h.eval scope _) fun v => ?_
    exact R.after (.gets _) fun _ => R.ret _

theorem run_related (h : m.Related R m') (form : Form) (scope : Value) (operands : List Value) :
    R.rel (form.run m scope operands) (form.run m' scope operands) := by
  refine R.after (Signature.check_reads _ _).candid fun _ => ?_
  cases form with
  | comment => exact R.ret _
  | define => exact runDefine_related h scope operands
  | assign => exact runAssign_related h scope operands
  | lambda => exact R.candid (makeClosure_candid scope operands)
  | defineFunction => exact runDefineFunction_related h scope operands
  | adapt => exact runAdapt_related h scope operands
  | print => exact runPrint_related h scope operands
  | choose => exact runChoose_related h scope operands
  | cond => exact runCond_related h scope operands
  | object => exact runObject_related h scope operands
  | array => exact runArray_related h scope operands
  | construct => exact runConstruct_related h scope operands
  | getPath => exact runGetPath_related h scope operands
  | setPath => exact runSetPath_related h scope operands
  | thread => exact runThread_related h scope operands
  | doto => exact runDoto_related h scope operands
  | operator op => exact runOperator_related h scope op operands
  | negate => exact runNegate_related h scope operands

end Form

/-! ## Sequence methods -/

namespace SequenceMethod

theorem mapElements_related (h : m.Related R m') (v fn : Value) :
    R.rel (mapElements m v fn) (mapElements m' v fn) := by
  refine R.bind (Machine.foldElements_related (fun item _ => ?_) h v #[]) fun _ =>
    R.candid (.newList _)
  exact R.bind (h.call fn [item]) fun _ => R.ret _

theorem filterElements_related (h : m.Related R m') (v fn : Value) :
    R.rel (filterElements m v fn) (filterElements m' v fn) := by
  refine R.bind (Machine.foldElements_related (fun item _ => ?_) h v #[]) fun _ =>
    R.candid (.newList _)
  refine R.bind (h.call fn [item]) fun answer => ?_
  exact R.after (.gets _) fun _ => R.ret _

theorem foldCalls_related (h : m.Related R m') (fn acc : Value) (items : List Value) :
    R.rel (foldCalls m fn acc items) (foldCalls m' fn acc items) := by
  induction items generalizing acc with
  | nil => exact R.ret acc
  | cons v rest ih => exact R.bind (h.call fn [acc, v]) ih

theorem reduceElements_related (h : m.Related R m') (v fn initial : Value) :
    R.rel (reduceElements m v fn initial) (reduceElements m' v fn initial) := by
  refine R.after (.elements v) fun items => ?_
  split
  · exact R.candid (.raise _)
  · exact foldCalls_related h fn _ _
  · exact foldCalls_related h fn initial _

theorem visitElements_related (h : m.Related R m') (v fn : Value) :
    R.rel (visitElements m v fn) (visitElements m' v fn) := by
  refine R.bind (Machine.foldElements_related (fun item _ => ?_) h v ()) fun _ => R.ret _
  exact R.bind (h.call fn [item]) fun _ => R.ret _

theorem firstElement_related (h : m.Related R m') (v fn : Value) (truth : Bool) :
    R.rel (firstElement m v fn truth) (firstElement m' v fn truth) := by
  refine Machine.foldElements_related (fun item _ => ?_) h v none
  refine R.bind (h.call fn [item]) fun answer => ?_
  refine R.after (.gets _) fun truthy => ?_
  split <;> exact R.ret _

theorem sliceElements_candid (v start stop : Value) : Candid (sliceElements v start stop) := by
  unfold sliceElements
  extract_lets cut
  have hcut : ∀ items, Candid (cut items) := by
    intro items
    refine (Arguments.bound_reads start).candid.bind fun first => ?_
    extract_lets upTo
    have hupTo : ∀ last, Candid (upTo last) := fun _ => .newList _
    split
    · exact (Candid.ret _).bind hupTo
    · exact (Arguments.bound_reads stop).candid.bind hupTo
  split
  · exact (Candid.elements _).bind hcut
  · exact (Candid.elements _).bind hcut
  · exact (Candid.elements _).bind hcut
  · exact (Candid.elements _).bind hcut
  · exact (Candid.elements _).bind hcut
  · exact (Candid.raise _).bind hcut
  · exact (Reads.noPositions _).candid.bind hcut

theorem addition_candid (v : Value) : Candid (addition v) := by
  unfold addition
  split
  · exact (Candid.gets _).bind fun _ => .ret _
  · exact .ret _
  · exact .ret _

theorem additions_candid (values : List Value) : Candid (additions values) := by
  induction values with
  | nil => exact .ret []
  | cons v rest ih => exact (addition_candid v).bind fun _ => ih.bind fun _ => .ret _

theorem textsOf_candid (values : List Value) : Candid (textsOf values) := by
  induction values with
  | nil => exact .ret []
  | cons v rest ih =>
    unfold textsOf
    extract_lets others
    have hothers : ∀ text, Candid (others text) := fun _ => ih.bind fun _ => .ret _
    split
    · exact (Candid.ret _).bind hothers
    · exact (Candid.compute _).bind hothers

theorem joinElements_related (h : m.Related R m') (v separator : Value) :
    R.rel (joinElements m v separator) (joinElements m' v separator) := by
  unfold joinElements
  split
  · refine R.after (.elements v) fun items => ?_
    exact R.after (textsOf_candid items) fun _ => R.ret _
  · refine R.after (.elements v) fun items => ?_
    refine R.after (textsOf_candid items) fun texts => R.candid ?_
    split
    · exact .newBytes []
    · exact (Arguments.refused_reads _).candid
  · refine R.after (Property.member_candid _ _) fun join => ?_
    refine R.after (.elements v) fun items => ?_
    refine R.after (textsOf_candid items) fun texts => ?_
    exact R.after (.make fun _ => rfl) fun _ => h.call join _

theorem positionOf_related (h : m.Related R m') (v value : Value) :
    R.rel (positionOf m v value) (positionOf m' v value) := by
  unfold positionOf
  dsimp only
  split
  · refine R.after (.elements _) fun items => ?_
    exact R.after (indexIn_reads value items).candid fun _ => R.ret _
  · refine R.after (.elements _) fun items => ?_
    exact R.after (indexIn_reads value items).candid fun _ => R.ret _
  · split
    · exact R.ret _
    · exact R.ret _
    · exact R.candid (Arguments.refused_reads _).candid
  · exact R.after (Arguments.text_reads value).candid fun _ => R.ret _
  · exact R.after (Property.member_candid _ _) fun method => h.call method [value]

theorem pushElements_related (h : m.Related R m') (v : Value) (values : List Value) :
    R.rel (pushElements m v values) (pushElements m' v values) := by
  unfold pushElements
  split
  · refine R.candid ((Candid.gets _).bind fun _ => ?_)
    exact Candid.bind (.update fun _ => rfl) fun _ => .ret _
  · refine R.after (Property.member_candid _ _) fun extend => ?_
    refine R.after (.newTuple values) fun addition => ?_
    refine R.bind (h.call extend [addition]) fun _ => ?_
    exact R.after (.compute _) fun _ => R.ret _

/-- The search in a sequence is the only method that handles errors, so that its relation is
given. -/
theorem call_related (method : SequenceMethod) (args : List Value) (named : List (String × Value))
    (h : method ≠ .indexOf → m.Related R m')
    (hsearch : method = .indexOf → ∀ v value,
      R.rel (indexOfElement m v value) (indexOfElement m' v value)) :
    R.rel (method.call m args named) (method.call m' args named) := by
  refine R.after (Action.Reads.ofExcept _).candid fun given => ?_
  split
  · exact mapElements_related (h nofun) _ _
  · exact filterElements_related (h nofun) _ _
  · exact reduceElements_related (h nofun) _ _ _
  · exact visitElements_related (h nofun) _ _
  · exact R.bind (firstElement_related (h nofun) _ _ true) fun _ => R.ret _
  · exact R.bind (firstElement_related (h nofun) _ _ true) fun _ => R.ret _
  · exact R.bind (firstElement_related (h nofun) _ _ false) fun _ => R.ret _
  · exact R.candid (sliceElements_candid _ _ _)
  · refine R.after (.elements _) fun _ => ?_
    exact R.after (additions_candid _) fun _ => R.candid (.newList _)
  · exact joinElements_related (h nofun) _ _
  · exact R.after (.contains _ _) fun _ => R.ret _
  · exact hsearch rfl _ _
  · exact pushElements_related (h nofun) _ _
  · exact R.candid Arguments.wrongCount_reads.candid

end SequenceMethod

end Lisplet
