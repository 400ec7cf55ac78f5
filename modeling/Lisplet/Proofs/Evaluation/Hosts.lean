import Lisplet.Proofs.Evaluation.Congruence

/-!
# Hosts and calls

What a function of a host does is up to the host. A host that handles no error of what it calls only
puts together actions of its own and operations of the machine, and so passes a relation between
machines on, like all that is written against a machine. With such a host the relation is passed on
from one step to the next one.
-/

namespace Lisplet

open Lisplet.Action

/-- All errors that leave the action are as they were raised. -/
def Action.RaisesOutright {α : Type} (a : Action α) : Prop :=
  ∀ s e t, a s = .failed e t → e.Raised

/-! ## Hosts that handle no errors -/

/-- What is done against a machine without handling errors: actions of one's own, operations of the
machine and loops over elements, one after the other. -/
inductive PassesErrors (Own : (α : Type) → Action α → Prop) :
    {α : Type} → (Machine → Action α) → Prop where
  | own {α : Type} {a : Action α} (ha : Own α a) : PassesErrors Own fun _ => a
  | eval (scope operand : Value) : PassesErrors Own fun m => m.eval scope operand
  | invoke (scope f : Value) (operands : List Value) :
    PassesErrors Own fun m => m.invoke scope f operands
  | call (f : Value) (args : List Value) : PassesErrors Own fun m => m.call f args
  | apply (scope head : Value) (operands : List Value) (line : Value) :
    PassesErrors Own fun m => m.apply scope head operands line
  | bind {α β : Type} {a : Machine → Action α} {f : Machine → α → Action β}
    (ha : PassesErrors Own a) (hf : ∀ v, PassesErrors Own fun m => f m v) :
    PassesErrors Own fun m => a m >>= f m
  | fold {σ : Type} {step : Machine → Value → σ → Action (ForInStep σ)}
    (hstep : ∀ v acc, PassesErrors Own fun m => step m v acc) (c : Cursor) (acc : σ) :
    PassesErrors Own fun m => Cursor.fold (step m) m.fuel c acc

/-- The functions of the host handle no errors of what they call, and errors of their own leave them
as they were raised. -/
def Host.PassesErrors (host : Host) : Prop :=
  ∀ f args, Lisplet.PassesErrors @RaisesOutright fun m => host.run m f args

/-- The functions of the host are related if they are run against related machines. -/
def Host.Respects (host : Host) (R : Congruence) : Prop :=
  ∀ {m m' : Machine}, m.Related R m' → ∀ f args, R.rel (host.run m f args) (host.run m' f args)

variable {R : Congruence} {m m' : Machine}

namespace PassesErrors

variable {α σ : Type} {a : Machine → Action α} {Own Own' : (α : Type) → Action α → Prop}

theorem mono (hown : ∀ {α : Type} {a : Action α}, Own α a → Own' α a) (ha : PassesErrors Own a) :
    PassesErrors Own' a := by
  induction ha with
  | own ha => exact .own (hown ha)
  | eval scope operand => exact .eval scope operand
  | invoke scope f operands => exact .invoke scope f operands
  | call f args => exact .call f args
  | apply scope head operands line => exact .apply scope head operands line
  | bind _ _ iha ihf => exact .bind iha ihf
  | fold _ c acc ih => exact .fold ih c acc

/-- What handles no errors is related if it is done against related machines. -/
theorem related (hown : ∀ {α : Type} {a : Action α}, Own α a → R.rel a a)
    (ha : PassesErrors Own a) (h : m.Related R m') : R.rel (a m) (a m') := by
  induction ha with
  | own ha => exact hown ha
  | eval scope operand => exact h.eval scope operand
  | invoke scope f operands => exact h.invoke scope f operands
  | call f args => exact h.call f args
  | apply scope head operands line => exact h.apply scope head operands line
  | bind _ _ iha ihf => exact R.bind iha ihf
  | fold _ c acc ih => exact h.fold ih c acc

/-- What does not depend on the machine is an action of one's own. -/
theorem of_same (hsame : ∀ m m', a m = a m') (ha : ∀ m, Own α (a m)) : PassesErrors Own a := by
  have heq : a = fun _ => a (machine 0) := funext fun m => hsame m (machine 0)
  rw [heq]
  exact .own (ha (machine 0))

variable {step : Machine → Value → σ → Action (ForInStep σ)}
  (hstep : ∀ v acc, PassesErrors @Candid fun m => step m v acc)

include hstep

theorem foldItems (items : List Value) (acc : σ) :
    PassesErrors @Candid fun m => Lisplet.foldItems (step m) items acc := by
  induction items generalizing acc with
  | nil => exact .own (.ret acc)
  | cons v rest ih =>
    refine .bind (hstep v acc) fun round => ?_
    cases round with
    | done acc => exact .own (.ret acc)
    | yield acc => exact ih acc

theorem foldElements (v : Value) (init : σ) :
    PassesErrors @Candid fun m => m.foldElements v init (step m) := by
  cases v with
  | list r => exact .fold hstep _ init
  | iterator r => exact .fold hstep _ init
  | dict r => exact .bind (.own (.gets _)) fun _ => .fold hstep _ init
  | _ => exact .bind (.own (.compute _)) fun items => foldItems hstep items init

end PassesErrors

/-! ## The host of the table -/

namespace HostFunction

theorem rest_candid (v : Value) : Candid (rest v) := by
  unfold rest
  split
  · exact (Candid.elements _).bind fun _ => .newList _
  · exact .newTuple _
  · exact .copiedBytes _
  · exact .raise _
  · split
    · exact .ret _
    · exact (Reads.noPositions _).candid

theorem note_candid (picture : Store → Snapshot) : Candid (note picture) :=
  .update fun _ => rfl

theorem makePoint_candid (x y : Value) : Candid (makePoint x y) :=
  Candid.bind (.make fun _ => rfl) fun _ => .ret _

/-- The host raises its own error again, as it has become. -/
theorem failShared_candid : Candid (do
    let failure ← Action.gets (·.shared)
    Action.fail { failure with shared := true } : Action Value) :=
  fun _ => ⟨rfl, .shared rfl, fun _ => rfl⟩

/-- The functions that do not call back only do what is their own. -/
theorem call_candid (m : Machine) {f : HostFunction} (happly : f ≠ .apply) (hmap : f ≠ .mapList)
    (args : List Value) : Candid (f.call m args) := by
  unfold call
  split
  · exact .ret _
  · exact .newList _
  · exact .newTuple _
  · exact absurd rfl happly
  · exact absurd rfl hmap
  · exact (Reads.subscript _ _).candid
  · exact rest_candid _
  · refine (Candid.elements _).bind fun items => ?_
    exact Candid.bind (.make fun _ => rfl) fun _ => .ret _
  · exact (note_candid _).bind fun _ => .ret _
  · exact (note_candid _).bind fun _ => .ret _
  · exact .raise _
  · exact .raise _
  · exact failShared_candid
  · exact .raise _
  · exact makePoint_candid _ _
  · exact makePoint_candid _ _
  · exact makePoint_candid _ _
  · exact Arguments.wrongCount_reads.candid

theorem call_passesErrors (f : HostFunction) (args : List Value) :
    PassesErrors @Candid fun m => f.call m args := by
  cases f with
  | apply =>
    cases args with
    | nil => exact .own Arguments.wrongCount_reads.candid
    | cons fn args => exact .call fn args
  | mapList =>
    match args with
    | [fn, v] =>
      refine .bind (.foldElements (fun item acc => ?_) v #[]) fun results => .own (.newList results)
      exact .bind (.call fn [item]) fun _ => .own (.ret _)
    | [] | [_] | _ :: _ :: _ :: _ => exact .own Arguments.wrongCount_reads.candid
  | _ =>
    refine .of_same (fun m m' => ?_) fun m => call_candid m (by nofun) (by nofun) args
    -- Which case of the table it is depends on the first two arguments.
    rcases args with _ | ⟨_, _ | ⟨_, _ | _⟩⟩ <;> rfl

end HostFunction

theorem Host.offered_passesErrors : Host.offered.PassesErrors :=
  fun f args => (f.call_passesErrors args).mono fun ha _ _ _ h => ha.raised h

theorem Host.offered_respects (R : Congruence) : Host.offered.Respects R :=
  fun h f args => (f.call_passesErrors args).related R.candid h

theorem pointSum_candid (v : Value) : Candid (pointSum v) := by
  refine (Property.member_candid v "x").bind fun x => ?_
  exact (Property.member_candid v "y").bind fun y => Operator.apply_candid .add x y

/-! ## Calls -/

namespace ScopeMethod

theorem entryText_candid (e : Entry) : Candid (entryText e) :=
  (Candid.compute _).bind fun _ => (Candid.compute _).bind fun _ => .ret _

theorem entryTexts_candid (entries : List Entry) : Candid (entryTexts entries) := by
  induction entries with
  | nil => exact .ret []
  | cons e rest ih => exact (entryText_candid e).bind fun _ => ih.bind fun _ => .ret _

theorem writeTo_related (h : m.Related R m') (r : ScopeRef) (buffer : Value) :
    R.rel (writeTo m r buffer) (writeTo m' r buffer) := by
  refine R.after (Property.member_candid _ _) fun method => ?_
  refine R.bind (h.call method _) fun _ => ?_
  refine R.after (Property.member_candid _ _) fun write => ?_
  refine R.after (.compute _) fun entries => ?_
  refine R.after (entryTexts_candid entries) fun texts => ?_
  refine R.bind (h.call write _) fun _ => ?_
  refine R.after (Property.member_candid _ _) fun method => ?_
  exact R.bind (h.call method _) fun _ => R.ret _

theorem call_related (h : m.Related R m') (method : ScopeMethod) (r : ScopeRef)
    (args : List Value) : R.rel (method.call m r args) (method.call m' r args) := by
  refine R.after (Signature.check_reads _ _).candid fun _ => ?_
  split
  · exact R.after (r.isDefined_candid _) fun _ => R.ret _
  · exact R.after (r.isReadOnly_candid _) fun _ => R.ret _
  · exact R.candid (r.getVar_candid _)
  · exact Machine.lookup_related h _ _
  · exact Machine.assign_related h _ _ _
  · exact R.bind (writeTo_related h r _) fun _ => R.ret _
  · exact R.candid Arguments.wrongCount_reads.candid

end ScopeMethod

/-- The function searches for a value in a sequence. -/
def FunctionCode.isSearch : FunctionCode → Bool
  | .bound method _ _ | .unbound method => method == .indexOf
  | _ => false

namespace Machine

/-- The values that a closure has got are bound to its parameters, and then its body is run. -/
def enterClosure (m : Machine) (r : ClosureRef) (args : List Value) : Action Value := do
  let outer ← Property.member (.closure r) "scope"
  let inner := Value.scope (← Action.make (·.addScope [] outer))
  let params ← Operand.content (← Property.member (.closure r) "params")
  discard (m.foldElements params 0 (Pattern.bindPosition m inner (.fixed args)))
  m.block inner (← Property.member (.closure r) "body")

theorem invokeClosure_eq (m : Machine) (scope : Value) (r : ClosureRef) (operands : List Value) :
    m.invokeClosure scope r operands = m.elements scope operands >>= m.enterClosure r :=
  rfl

theorem enterClosure_related (h : m.Related R m') (r : ClosureRef) (args : List Value) :
    R.rel (m.enterClosure r args) (m'.enterClosure r args) := by
  refine R.after (Property.member_candid _ _) fun outer => ?_
  refine R.after (.make fun _ => rfl) fun inner => ?_
  refine R.after (Property.member_candid _ _) fun params => ?_
  refine R.after (Operand.content_candid params) fun items => ?_
  have hparams := Pattern.bindPosition_related h (.scope inner) (.fixed args)
  refine R.bind (R.discard (foldElements_related hparams h items 0)) fun _ => ?_
  exact R.after (Property.member_candid _ _) fun body => block_related h _ body

theorem invokeClosure_related (h : m.Related R m') (scope : Value) (r : ClosureRef)
    (operands : List Value) :
    R.rel (m.invokeClosure scope r operands) (m'.invokeClosure scope r operands) := by
  rw [invokeClosure_eq, invokeClosure_eq]
  exact R.bind (elements_related h scope operands) (enterClosure_related h r)

theorem renumbered_candid (v : Value) : Candid (renumbered v) := by
  unfold renumbered
  split
  · exact Candid.newId.bind fun _ => .ret _
  · exact .ret _

theorem renumberedAll_candid (values : List Value) : Candid (renumberedAll values) := by
  induction values with
  | nil => exact .ret []
  | cons v rest ih => exact (renumbered_candid v).bind fun _ => ih.bind fun _ => .ret _

theorem invokeForm_related (h : m.Related R m') (scope : Value) (form : Form)
    (operands : List Value) :
    R.rel (m.invokeForm scope form operands) (m'.invokeForm scope form operands) := by
  refine R.after (.gets _) fun body => ?_
  split
  · exact R.after (renumberedAll_candid operands) fun values => h.call _ (scope :: values)
  · exact Form.run_related h form scope operands

theorem invokeStep_related (h : m.Related R m') (scope f : Value) (operands : List Value) :
    R.rel (m.invokeStep scope f operands) (m'.invokeStep scope f operands) := by
  cases f with
  | closure r => exact invokeClosure_related h scope r operands
  | form form => exact invokeForm_related h scope form operands
  | _ => exact R.candid (.raise _)

theorem namedArguments_candid (entries : List Entry) : Candid (namedArguments entries) := by
  induction entries with
  | nil => exact .ret []
  | cons e rest ih =>
    unfold namedArguments
    split
    · exact ih.bind fun _ => .ret _
    · exact (Arguments.refused_reads _).candid

theorem callCode_related {host : Host} (hhost : host.Respects R) (code : FunctionCode)
    (args : List Value) (h : code.isSearch = false → m.Related R m')
    (hsearch : code.isSearch = true → ∀ v value, R.rel (SequenceMethod.indexOfElement m v value)
      (SequenceMethod.indexOfElement m' v value)) :
    R.rel (m.callCode host code args) (m'.callCode host code args) := by
  have hmethod : ∀ (method : SequenceMethod) args named, code.isSearch = (method == .indexOf) →
      R.rel (method.call m args named) (method.call m' args named) := by
    intro method args named hcode
    refine SequenceMethod.call_related method args named (fun hne => h ?_) fun heq => hsearch ?_
    · rw [hcode, beq_eq_false_iff_ne]
      exact hne
    · rw [hcode, heq]
      rfl
  cases code with
  | host f => exact hhost (h rfl) f args
  | adapter target scope => exact (h rfl).invoke scope target _
  | bound method first named =>
    refine R.after (.gets _) fun d => ?_
    refine R.after (namedArguments_candid d.entries) fun given => ?_
    exact R.after (.elements first) fun _ => hmethod method _ given rfl
  | unbound method => exact hmethod method args [] rfl
  | formBody form =>
    refine R.after (Signature.check_reads _ _).candid fun _ => ?_
    cases args with
    | nil => exact R.candid Arguments.wrongCount_reads.candid
    | cons scope operands => exact Form.run_related (h rfl) form scope operands
  | pointSum =>
    refine R.candid ?_
    unfold callCode
    dsimp only
    split
    · exact pointSum_candid _
    · exact Arguments.wrongCount_reads.candid

theorem wrapNew_candid (args : List Value) : Candid (wrapNew args) := by
  refine (Signature.check_reads _ _).candid.bind fun _ => ?_
  exact Candid.newId.bind fun _ => .ret _

theorem invokeWith_related (h : m.Related R m') (f : Value) (args : List Value) :
    R.rel (m.invokeWith f args) (m'.invokeWith f args) :=
  R.after (Signature.check_reads _ _).candid fun _ => h.invoke _ f _

end Machine

/-- The host function that a value is or that it is a method with. -/
def Value.functionRef? : Value → Option FunctionRef
  | .function r | .method _ (.function r) _ => some r
  | _ => none

namespace Machine

/-- All that can be called apart from host functions. -/
theorem callStep_related (host : Host) (h : m.Related R m') {f : Value}
    (hf : f.functionRef? = none) (args : List Value) :
    R.rel (m.callStep host f args) (m'.callStep host f args) := by
  cases f with
  | closure r =>
    exact R.after (Property.member_candid _ _) fun scope => h.invoke scope (.closure r) _
  | form form => exact R.after (.make fun _ => rfl) fun scope => h.invoke (.scope scope) _ _
  | function r => cases hf
  | method receiver method id =>
    show R.rel (m.callMethod host receiver method args) (m'.callMethod host receiver method args)
    unfold callMethod
    split
    · exact R.candid (TextMethod.call_candid _ _ _)
    · exact R.candid (BytesMethod.call_candid _ _ _ _)
    · exact R.candid (ListMethod.call_candid _ _ _)
    · exact R.candid (TupleMethod.call_candid _ _ _)
    · exact R.candid (SetMethod.call_candid _ _ _ _)
    · exact R.candid (NumberMethod.callDouble_candid _ _ _)
    · exact R.candid (NumberMethod.callBool_candid _ _ _)
    · exact R.candid (NumberMethod.callInt_candid _ _ _ _)
    · exact ScopeMethod.call_related h _ _ args
    · exact R.candid (wrapNew_candid args)
    · exact invokeWith_related h receiver args
    · cases hf
    · exact R.candid Arguments.wrongCount_reads.candid
  | _ => exact R.candid (.raise _)

/-- What is called with a host function looks up the function. -/
theorem exists_callStep_eq {f : Value} {r : FunctionRef} (hf : f.functionRef? = some r)
    (args : List Value) : ∃ args', ∀ (host : Host) (m : Machine),
      m.callStep host f args = m.callFunction host r args' := by
  cases f with
  | function r' =>
    cases hf
    exact ⟨args, fun _ _ => rfl⟩
  | method receiver method id =>
    cases method with
    | function r' =>
      cases hf
      exact ⟨receiver :: args, fun _ m => by cases receiver <;> rfl⟩
    | _ => cases hf
  | _ => cases hf

/-- All that can be called, if the search in a sequence is related as well. -/
theorem callStep_related_of_search {host : Host} (hhost : host.Respects R) (h : m.Related R m')
    (hsearch : ∀ v value, R.rel (SequenceMethod.indexOfElement m v value)
      (SequenceMethod.indexOfElement m' v value)) (f : Value) (args : List Value) :
    R.rel (m.callStep host f args) (m'.callStep host f args) := by
  cases hf : f.functionRef? with
  | none => exact callStep_related host h hf args
  | some r =>
    obtain ⟨args', hargs⟩ := exists_callStep_eq hf args
    rw [hargs, hargs]
    refine R.after (.gets _) fun cell => ?_
    cases cell with
    | none => exact R.ret _
    | some cell => exact callCode_related hhost cell.code args' (fun _ => h) fun _ => hsearch

end Machine

/-! ## Evaluation -/

theorem numberOf_candid (text : String) : Candid (numberOf text) := by
  unfold numberOf
  split
  · exact .ret _
  · exact .newFloat _
  · exact .raise _

theorem keywordValue_candid (text : String) : Candid (keywordValue text) := by
  unfold keywordValue
  split
  · exact .ret _
  · exact .ret _
  · exact .ret _
  · exact .ret _
  · exact .raise _

namespace Machine

theorem evalNode_related (h : m.Related R m') (scope : Value) (e : Expr) :
    R.rel (m.evalNode scope e) (m'.evalNode scope e) := by
  unfold evalNode
  split
  · exact R.ret _
  · exact R.ret _
  · exact R.candid (numberOf_candid _)
  · exact R.ret _
  · exact R.ret _
  · exact R.candid (keywordValue_candid _)
  · exact lookup_related h scope _
  · exact R.bind (elements_related h scope _) fun _ => R.candid (.newList _)
  · exact R.bind (entries_related h scope _) fun _ => R.candid (.newDict _)
  · exact R.candid (.raise _)
  · exact h.apply scope _ _ _
  · exact R.after (.compute _) fun _ => R.candid (.raise _)

theorem evalStep_related (h : m.Related R m') (scope operand : Value) :
    R.rel (m.evalStep scope operand) (m'.evalStep scope operand) := by
  unfold evalStep
  split
  · exact R.ret _
  · exact evalNode_related h scope _
  · exact R.after (.compute _) fun _ => R.candid (.raise _)

end Machine

end Lisplet
