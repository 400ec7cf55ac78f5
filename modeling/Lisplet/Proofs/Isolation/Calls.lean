import Lisplet.Evaluation.Eval
import Lisplet.Proofs.Isolation.Forms

/-!
# Calls and evaluation

Every way to call something follows the machine, and so does the evaluation of every operand. The
only scopes that are made on the way are those for the bodies of closures, inside the scopes that
the closures remember, and those that a form is called from as a function, with nothing around them.
-/

namespace Lisplet

open Lisplet.Action Arguments

variable {n : Nat} {m m' : Machine}

/-- All values of an array are confined. -/
def ArrayConfined (n : Nat) (items : Array Value) : Prop := AllConfined n items.toList

instance : Upward ArrayConfined := ⟨fun h hle => AllConfined.mono h hle⟩

theorem ArrayConfined.push {items : Array Value} {v : Value} (hi : ArrayConfined n items)
    (hv : v.Confined n) : ArrayConfined n (items.push v) := by
  unfold ArrayConfined
  rw [Array.toList_push]
  exact AllConfined.append hi (.cons hv .nil)

theorem ArrayConfined.empty : ArrayConfined n #[] := AllConfined.nil

/-! ## Sequence methods -/

namespace SequenceMethod

section

variable (h : m.Follows m')

include h

/-- A callback is called with each element, and its results are collected. -/
theorem collect_follows {v fn : Value} (hv : v.Confined n) (hfn : fn.Confined n) :
    Action.Follows n
      (m.foldElements v #[] fun item acc => do return .yield (acc.push (← m.call fn [item])))
      (m'.foldElements v #[] fun item acc => do return .yield (acc.push (← m'.call fn [item])))
      ArrayConfined := by
  refine Machine.foldElements_follows (fun k hk item acc hitem hacc => ?_) h hv .empty
  refine (h.call (hfn.mono hk) (.cons hitem .nil)).bind fun _ hle result hresult => ?_
  exact (Secure.yield (ArrayConfined.push (Upward.mono hacc hle) hresult)).follows

theorem mapElements_follows {v fn : Value} (hv : v.Confined n) (hfn : fn.Confined n) :
    Action.Follows n (mapElements m v fn) (mapElements m' v fn) Value.Confined :=
  (collect_follows h hv hfn).bind fun _ _ _ hresults => (Secure.newList hresults).follows

theorem filterElements_follows {v fn : Value} (hv : v.Confined n) (hfn : fn.Confined n) :
    Action.Follows n (filterElements m v fn) (filterElements m' v fn) Value.Confined := by
  refine Action.Follows.bind (Q := ArrayConfined) ?_ fun _ _ _ hkept =>
    (Secure.newList hkept).follows
  refine Machine.foldElements_follows (fun k hk item acc hitem hacc => ?_) h hv .empty
  refine (h.call (hfn.mono hk) (.cons hitem .nil)).bind fun _ hle result _ => ?_
  refine (Reads.truthy result).secure.follows.seq fun truth => ?_
  refine (Secure.yield (P := ArrayConfined) ?_).follows
  split
  · exact ArrayConfined.push (Upward.mono hacc hle) (hitem.mono hle)
  · exact Upward.mono hacc hle

theorem foldCalls_follows {fn acc : Value} {items : List Value} (hfn : fn.Confined n)
    (hacc : acc.Confined n) (hi : AllConfined n items) :
    Action.Follows n (foldCalls m fn acc items) (foldCalls m' fn acc items) Value.Confined := by
  induction items generalizing n acc with
  | nil => exact (Secure.ret hacc).follows
  | cons v rest ih =>
    exact (h.call hfn (.cons hacc (.cons hi.head .nil))).bind fun _ hle _ hresult =>
      ih (hfn.mono hle) hresult (hi.tail.mono hle)

theorem reduceElements_follows {v fn initial : Value} (hv : v.Confined n) (hfn : fn.Confined n)
    (hinitial : initial.Confined n) :
    Action.Follows n (reduceElements m v fn initial) (reduceElements m' v fn initial)
      Value.Confined := by
  refine (Secure.elements hv).follows.bind fun _ hle items hitems => ?_
  split
  · exact (Secure.raise _).follows
  · exact foldCalls_follows h (hfn.mono hle) hitems.head hitems.tail
  · exact foldCalls_follows h (hfn.mono hle) (hinitial.mono hle) hitems

theorem visitElements_follows {v fn : Value} (hv : v.Confined n) (hfn : fn.Confined n) :
    Action.Follows n (visitElements m v fn) (visitElements m' v fn) Value.Confined := by
  refine Action.Follows.seq (Q := Any) ?_ fun _ => (Secure.ret trivial).follows
  refine Machine.foldElements_follows (fun k hk item acc hitem _ => ?_) h hv trivial
  exact (h.call (hfn.mono hk) (.cons hitem .nil)).seq fun _ =>
    (Secure.ret (stepSatisfies_any _)).follows

theorem firstElement_follows {v fn : Value} (truth : Bool) (hv : v.Confined n)
    (hfn : fn.Confined n) :
    Action.Follows n (firstElement m v fn truth) (firstElement m' v fn truth) OptionConfined := by
  refine Machine.foldElements_follows (fun k hk item acc hitem hacc => ?_) h hv .none
  refine (h.call (hfn.mono hk) (.cons hitem .nil)).bind fun _ hle result _ => ?_
  refine (Reads.truthy result).secure.follows.seq fun found => ?_
  split
  · exact (Secure.stop (OptionConfined.some (hitem.mono hle))).follows
  · exact (Secure.yield (P := OptionConfined) (Upward.mono hacc hle)).follows

omit h in
theorem sliceElements_secure {v : Value} (start stop : Value) (hv : v.Confined n) :
    Secure n (sliceElements v start stop) Value.Confined := by
  have hslice : ∀ (k : Nat) (items : List Value) (start stop : Option Int), AllConfined k items →
      AllConfined k (sliceOf items start stop) := by
    intro k items start stop hi
    exact (hi.take _).drop _
  have hrest : ∀ k, ∀ items : List Value, AllConfined k items → Secure k (do
      let start ← Arguments.bound start
      let stop ← if stop.isNullish then pure Option.none else Arguments.bound stop
      Action.newList (sliceOf items start stop).toArray) Value.Confined := by
    intro k items hi
    refine (bound_reads _).secure.seq fun lo => ?_
    dsimp only
    split
    · exact .newList (hslice k items lo none hi)
    · exact (bound_reads _).secure.bind fun l hle hi' _ =>
        .newList (hslice l items lo hi' (hi.mono hle))
  cases v with
  | list _ | tuple _ _ | str _ | kind _ | bytes _ _ =>
    exact (Secure.elements hv).bind fun k _ items hi => hrest k items hi
  | dict r => exact Secure.bind (Q := AllConfined) (.raise _) fun k _ items hi => hrest k items hi
  | _ => exact Secure.bind (Q := AllConfined) (.noPositions _) fun k _ items hi => hrest k items hi

omit h in
theorem addition_secure {v : Value} (hv : v.Confined n) : Secure n (addition v) AllConfined := by
  cases v with
  | list r => exact (Secure.getList r).bind fun _ _ _ hi => .ret hi
  | tuple id items => exact .ret (Value.confined_tuple.mp hv)
  | _ => exact .ret (.cons hv .nil)

omit h in
theorem additions_secure {args : List Value} (hargs : AllConfined n args) :
    Secure n (additions args) AllConfined := by
  induction args generalizing n with
  | nil => exact .ret .nil
  | cons v rest ih =>
    refine (addition_secure hargs.head).bind fun _ hle here hhere => ?_
    exact (ih (hargs.tail.mono hle)).bind fun _ hle' _ hrest =>
      .ret ((hhere.mono hle').append hrest)

omit h in
theorem textsOf_secure (items : List Value) : Secure n (textsOf items) Any := by
  induction items with
  | nil => exact .retAny _
  | cons v rest ih =>
    unfold textsOf
    dsimp only
    split
    · exact ih.seq fun _ => .retAny _
    · exact (Secure.computeAny _).seq fun _ => ih.seq fun _ => .retAny _

theorem joinElements_follows {v separator : Value} (hv : v.Confined n)
    (hsep : separator.Confined n) :
    Action.Follows n (joinElements m v separator) (joinElements m' v separator)
      Value.Confined := by
  unfold joinElements
  split
  · refine Secure.follows ?_
    exact (Secure.elements hv).seq fun _ => (textsOf_secure _).seq fun _ => .ret trivial
  · refine Secure.follows ?_
    refine (Secure.elements hv).seq fun _ => (textsOf_secure _).seq fun texts => ?_
    split
    · exact .newBytes _
    · exact .raise _
  · refine (Property.member_secure hsep (.inl (by decide))).follows.bind fun k hk join hjoin => ?_
    refine (Secure.elements (hv.mono hk)).follows.bind fun l hl items _ => ?_
    refine (textsOf_secure items).follows.bind fun p hp texts _ => ?_
    have hmake : Secure p (Action.make (·.addIterator .generated (texts.map .str))) Any :=
      .make (fun _ => rfl) fun s hs _ =>
        ⟨hs.addIterator _ (.map fun _ _ => trivial), trivial⟩
    refine hmake.follows.bind fun q hq r _ => ?_
    have hiterator : (Value.iterator r).Confined q := trivial
    exact h.call (hjoin.mono (Nat.le_trans hl (Nat.le_trans hp hq))) (.cons hiterator .nil)

theorem positionOf_follows {v value : Value} (hv : v.Confined n) (hvalue : value.Confined n) :
    Action.Follows n (positionOf m v value) (positionOf m' v value) Value.Confined := by
  unfold positionOf
  dsimp only
  split
  · exact ((Secure.elements hv).seq fun _ =>
      (indexFrom_reads _ _ _ _).secure.seq fun _ => .ret trivial).follows
  · exact ((Secure.elements hv).seq fun _ =>
      (indexFrom_reads _ _ _ _).secure.seq fun _ => .ret trivial).follows
  · refine Secure.follows ?_
    split
    · exact .ret trivial
    · exact .ret trivial
    · exact .raise _
  · exact ((text_reads _).secure.seq fun _ => .ret trivial).follows
  · exact Machine.callMember_follows h hv (by decide) (.cons hvalue .nil)

theorem indexOfElement_follows {v value : Value} (hv : v.Confined n) (hvalue : value.Confined n) :
    Action.Follows n (indexOfElement m v value) (indexOfElement m' v value) Value.Confined :=
  (positionOf_follows h hv hvalue).catching (by decide) trivial

theorem pushElements_follows {v : Value} {values : List Value} (hv : v.Confined n)
    (hvalues : AllConfined n values) :
    Action.Follows n (pushElements m v values) (pushElements m' v values) Value.Confined := by
  unfold pushElements
  split
  · refine (Secure.getList _).follows.bind fun k hle items hitems => Secure.follows ?_
    have hall : AllConfined k (items ++ values.toArray).toList := by
      simpa using hitems.append (hvalues.mono hle)
    exact (Secure.setList _ hall).seq fun _ => .ret trivial
  · refine (Property.member_secure hv (.inl (by decide))).follows.bind fun k hk extend hextend => ?_
    refine (Secure.newTuple (hvalues.mono hk)).follows.bind fun l hl arg harg => ?_
    refine (h.call (hextend.mono hl) (.cons harg .nil)).seq fun _ => ?_
    exact ((Secure.computeAny _).seq fun _ => .ret trivial).follows

/-- Whatever sequence method is called, it follows the machine. -/
theorem call_follows (method : SequenceMethod) {args : List Value} {named : List (String × Value)}
    (hargs : AllConfined n args) (hnamed : ∀ a ∈ named, a.2.Confined n) :
    Action.Follows n (method.call m args named) (method.call m' args named) Value.Confined := by
  have hbind : Secure n (Action.ofExcept (method.signature.bind args named)) Arguments.Confined :=
    .ofExcept fun given hgiven => method.signature.bind_confined hargs hnamed hgiven
  refine hbind.follows.bind fun k _ given hgiven => ?_
  have hparam : ∀ {params : List (Option Value)}, given.params = params →
      ∀ o ∈ params, OptionConfined k o := by
    rintro _ rfl
    exact hgiven.1
  split
  · rename_i v fn hp
    exact mapElements_follows h (hparam hp _ (by simp) v rfl) (hparam hp _ (by simp) fn rfl)
  · rename_i v fn hp
    exact filterElements_follows h (hparam hp _ (by simp) v rfl) (hparam hp _ (by simp) fn rfl)
  · rename_i v fn initial hp
    exact reduceElements_follows h (hparam hp _ (by simp) v rfl) (hparam hp _ (by simp) fn rfl)
      (.getD (hparam hp initial (by simp)) trivial)
  · rename_i v fn hp
    exact visitElements_follows h (hparam hp _ (by simp) v rfl) (hparam hp _ (by simp) fn rfl)
  · rename_i v fn hp
    exact (firstElement_follows h true (hparam hp _ (by simp) v rfl)
      (hparam hp _ (by simp) fn rfl)).bind fun _ _ _ hfound =>
        (Secure.ret (.getD hfound trivial)).follows
  · rename_i v fn hp
    exact (firstElement_follows h true (hparam hp _ (by simp) v rfl)
      (hparam hp _ (by simp) fn rfl)).seq fun _ => (Secure.ret trivial).follows
  · rename_i v fn hp
    exact (firstElement_follows h false (hparam hp _ (by simp) v rfl)
      (hparam hp _ (by simp) fn rfl)).seq fun _ => (Secure.ret trivial).follows
  · rename_i v start stop hp
    exact (sliceElements_secure _ _ (hparam hp _ (by simp) v rfl)).follows
  · rename_i v hp
    refine (Secure.elements (hparam hp _ (by simp) v rfl)).follows.bind fun _ hle items hitems => ?_
    refine (additions_secure (hgiven.2.mono hle)).follows.bind fun _ hle' more hmore => ?_
    exact (Secure.newList ((hitems.mono hle').append hmore)).follows
  · rename_i v separator hp
    exact joinElements_follows h (hparam hp _ (by simp) v rfl)
      (.getD (hparam hp separator (by simp)) trivial)
  · exact ((Secure.contains _ _).seq fun _ => .ret trivial).follows
  · rename_i v value hp
    exact indexOfElement_follows h (hparam hp _ (by simp) v rfl) (hparam hp _ (by simp) value rfl)
  · rename_i v hp
    exact pushElements_follows h (hparam hp _ (by simp) v rfl) hgiven.2
  · exact (Secure.raise _).follows

end

end SequenceMethod

/-! ## Functions of the host -/

namespace HostFunction

theorem rest_secure {v : Value} (hv : v.Confined n) : Secure n (rest v) Value.Confined := by
  unfold rest
  split
  · exact (Secure.elements hv).bind fun _ _ _ hi => .newList (hi.drop 1)
  · exact .newTuple ((Value.confined_tuple.mp hv).drop 1)
  · exact .copiedBytes _
  · exact .raise _
  · split
    · exact .ret trivial
    · exact .noPositions _

theorem note_secure (picture : Store → Snapshot) : Secure n (note picture) Any :=
  .update (fun _ => rfl) fun _ hs _ => { hs with }

theorem makePoint_secure {x y : Value} (hx : x.Confined n) (hy : y.Confined n) :
    Secure n (makePoint x y) Value.Confined := by
  refine Secure.seq (Q := Any) (.make (fun _ => rfl) fun s hs hn => ⟨?_, trivial⟩)
    fun _ => .ret trivial
  refine hs.addObject _ fun a ha => ?_
  simp only [List.mem_cons, List.not_mem_nil, or_false] at ha
  rcases ha with rfl | rfl | rfl
  · exact ⟨by simp, hx.mono hn⟩
  · exact ⟨by simp, hy.mono hn⟩
  · exact ⟨by simp, trivial⟩

theorem call_follows (h : m.Follows m') (f : HostFunction) {args : List Value}
    (hargs : AllConfined n args) :
    Action.Follows n (f.call m args) (f.call m' args) Value.Confined := by
  have hzero : (Value.int 0).Confined n := trivial
  unfold call
  split
  · exact (Secure.ret hargs.head).follows
  · exact (Secure.newList hargs).follows
  · exact (Secure.newTuple hargs).follows
  · exact h.call hargs.head hargs.tail
  · exact (SequenceMethod.collect_follows h hargs.tail.head hargs.head).bind fun _ _ _ hresults =>
      (Secure.newList hresults).follows
  · exact (Secure.subscript _ (.inr hargs.head)).follows
  · exact (rest_secure hargs.head).follows
  · refine (Secure.elements hargs.head).follows.bind fun _ _ items hitems => Secure.follows ?_
    refine Secure.seq (Q := Any) (.make (fun _ => rfl) fun s hs hn => ?_) fun _ => .ret trivial
    exact ⟨hs.addIterator _ (hitems.mono hn), trivial⟩
  · exact ((note_secure _).seq fun _ => .ret hargs.head).follows
  · exact ((note_secure _).seq fun _ => .ret trivial).follows
  · exact (Secure.raise _).follows
  · exact (Secure.raise _).follows
  · exact ((Secure.getAny _).seq fun _ => .fail _).follows
  · exact (Secure.raise _).follows
  · exact (makePoint_secure hzero hzero).follows
  · exact (makePoint_secure hargs.head hzero).follows
  · exact (makePoint_secure hargs.head hargs.tail.head).follows
  · exact (Secure.raise _).follows

end HostFunction

theorem pointSum_secure {v : Value} (hv : v.Confined n) : Secure n (pointSum v) Value.Confined := by
  refine (Property.member_secure hv (.inl (by decide))).bind fun _ hle x hx => ?_
  refine (Property.member_secure (hv.mono hle) (.inl (by decide))).bind fun _ hle' y hy => ?_
  exact Operator.apply_secure .add (hx.mono hle') hy

/-! ## Methods of scopes -/

namespace ScopeMethod

theorem entryTexts_secure (entries : List Entry) : Secure n (entryTexts entries) Any := by
  induction entries with
  | nil => exact .retAny _
  | cons e rest ih =>
    have hentry : Secure n (entryText e) Any :=
      (Secure.computeAny _).seq fun _ => (Secure.computeAny _).seq fun _ => .retAny _
    exact hentry.seq fun _ => ih.seq fun _ => .retAny _

theorem writeTo_follows (h : m.Follows m') (r : ScopeRef) {buffer : Value}
    (hbuffer : buffer.Confined n) :
    Action.Follows n (writeTo m r buffer) (writeTo m' r buffer) Any := by
  have htext : ∀ k (text : String), AllConfined k [.str text] := fun _ _ => .cons trivial .nil
  have hmember : ∀ k, n ≤ k → Secure k (Property.member buffer "write") Value.Confined :=
    fun k hle => Property.member_secure (hbuffer.mono hle) (.inl (by decide))
  refine (hmember n (Nat.le_refl n)).follows.bind fun k hk first hfirst => ?_
  refine (h.call hfirst (htext k _)).bind fun l hl _ _ => ?_
  have hle := Nat.le_trans hk hl
  refine (hmember l hle).follows.bind fun p hp write hwrite => ?_
  refine (Secure.computeAny _).follows.seq fun entries => ?_
  refine (entryTexts_secure entries).follows.seq fun texts => ?_
  refine (h.call hwrite (htext p _)).bind fun q hq _ _ => ?_
  have hle := Nat.le_trans hle (Nat.le_trans hp hq)
  refine (hmember q hle).follows.bind fun u _ last hlast => ?_
  exact (h.call hlast (htext u _)).seq fun _ => (Secure.retAny _).follows

theorem call_follows (h : m.Follows m') (method : ScopeMethod) {r : ScopeRef} {args : List Value}
    (hr : (Value.scope r).Confined n) (hargs : AllConfined n args) :
    Action.Follows n (method.call m r args) (method.call m' r args) Value.Confined := by
  refine (Signature.check_reads _ _).secure.follows.seq fun _ => ?_
  split
  · exact ((ScopeRef.isDefined_secure hr _).seq fun _ => .ret trivial).follows
  · exact ((ScopeRef.isReadOnly_secure r _).seq fun _ => .ret trivial).follows
  · exact (ScopeRef.getVar_secure hr _).follows
  · exact Machine.lookup_follows h hr hargs.head
  · exact Machine.assign_follows h hr hargs.head hargs.tail.head
  · exact (writeTo_follows h r hargs.head).seq fun _ => (Secure.ret trivial).follows
  · exact (Secure.raise _).follows

end ScopeMethod

/-- A new scope is confined, and around it may be whatever may stand there. -/
theorem Action.Secure.addScope {vars : List (String × Value)} {parent : Value}
    (hvars : ∀ a ∈ vars, a.2.Confined n) (hparent : parent.Outer n) :
    Secure n (Action.make (·.addScope vars parent)) fun k r => (Value.scope r).Confined k := by
  intro s hs hn
  have hsealed := hs.addScope (fun a ha => (hvars a ha).mono hn) (Upward.mono hparent hn)
  exact ⟨hsealed, Store.Sealed.extends_addScope s vars parent, hs.addScope_ref vars parent⟩

theorem Action.Secure.addEmptyScope {parent : Value} (hparent : parent.Outer n) :
    Secure n (Action.make (·.addScope [] parent)) fun k r => (Value.scope r).Confined k := by
  refine .addScope (fun a ha => ?_) hparent
  cases ha

/-! ## Invoking and calling -/

namespace Machine

theorem wrap_confined {args : List Value} (hargs : AllConfined n args) :
    AllConfined n (args.map wrap) :=
  .map fun v hv => confined_host (hargs v hv) trivial

theorem renumberedAll_secure {operands : List Value} (hops : AllConfined n operands) :
    Secure n (renumberedAll operands) AllConfined := by
  have hone : ∀ {k : Nat} {v : Value}, v.Confined k → Secure k (renumbered v) Value.Confined := by
    intro k v hv
    unfold renumbered
    split
    · have hparts := Value.confined_node.mp hv
      exact Secure.newId.seq fun _ => .ret (confined_host hparts.1 hparts.2)
    · exact .ret hv
  induction operands generalizing n with
  | nil => exact .ret .nil
  | cons v rest ih =>
    refine (hone hops.head).bind fun _ hle here hhere => ?_
    exact (ih (hops.tail.mono hle)).bind fun _ hle' _ hrest => .ret (.cons (hhere.mono hle') hrest)

theorem namedArguments_secure {entries : List Entry} (he : ∀ e ∈ entries, e.value.Confined n) :
    Secure n (namedArguments entries) fun k named => ∀ a ∈ named, a.2.Confined k := by
  have hup : Upward fun k (named : List (String × Value)) => ∀ a ∈ named, a.2.Confined k :=
    ⟨fun hnamed hle a ha => (hnamed a ha).mono hle⟩
  induction entries with
  | nil =>
    refine .ret fun a ha => ?_
    cases ha
  | cons e rest ih =>
    unfold namedArguments
    split
    · refine (ih fun e' he' => he e' (List.mem_cons_of_mem _ he')).bind fun k hle named hn => .ret ?_
      exact List.forall_mem_cons.mpr ⟨(he e List.mem_cons_self).mono hle, hn⟩
    · exact .raise _

variable (h : m.Follows m')

include h

theorem invokeClosure_follows {scope : Value} (r : ClosureRef) {operands : List Value}
    (hscope : scope.Confined n) (hops : AllConfined n operands) :
    Action.Follows n (m.invokeClosure scope r operands) (m'.invokeClosure scope r operands)
      Value.Confined := by
  have hclosure : ∀ k, (Value.closure r).Confined k := fun _ => trivial
  have hslot : ∀ k (name : String), name ≠ "parent" →
      Secure k (Property.member (.closure r) name) Value.Confined :=
    fun k name hname => Property.member_secure (hclosure k) (.inl hname)
  refine (elements_follows h hscope hops).bind fun k _ args hargs => ?_
  refine (hslot k "scope" (by decide)).follows.bind fun l hl outer houter => ?_
  refine (Secure.addEmptyScope (.inr houter)).follows.bind fun p hp inner hinner => ?_
  refine (hslot p "params" (by decide)).follows.bind fun q hq params hparams => ?_
  refine (Operand.content_secure hparams).follows.bind fun t ht items hitems => ?_
  have hle := Nat.le_trans (Nat.le_trans hl hp) (Nat.le_trans hq ht)
  have hbind : Action.Follows t
      (m.foldElements items 0 (Pattern.bindPosition m (.scope inner) (.fixed args)))
      (m'.foldElements items 0 (Pattern.bindPosition m' (.scope inner) (.fixed args))) Any := by
    refine foldElements_follows (fun u hu item i hitem _ => ?_) h hitems trivial
    have hsource : (Pattern.Source.fixed args).Confined u := hargs.mono (Nat.le_trans hle hu)
    exact (Pattern.bindPosition_follows h i (hinner.mono (Nat.le_trans (Nat.le_trans hq ht) hu))
      hsource hitem).weaken fun _ step _ => stepSatisfies_any step
  have hdiscard := hbind.seq fun _ => (Secure.retAny PUnit.unit).follows
  refine hdiscard.bind fun u hu _ _ => ?_
  refine (hslot u "body" (by decide)).follows.bind fun w hw body hbody => ?_
  have hle := Nat.le_trans (Nat.le_trans hq ht) (Nat.le_trans hu hw)
  exact block_follows h (hinner.mono hle) hbody

theorem invokeForm_follows {scope : Value} (form : Form) {operands : List Value}
    (hscope : scope.Confined n) (hops : AllConfined n operands) :
    Action.Follows n (m.invokeForm scope form operands) (m'.invokeForm scope form operands)
      Value.Confined := by
  have hread : Secure n (Action.gets (·.formBodies.lookup form)) OptionConfined :=
    .gets fun s hs _ v hv => hs.formBodies form v hv
  refine hread.follows.bind fun _ hle body hbody => ?_
  split
  · refine (renumberedAll_secure (hops.mono hle)).follows.bind fun _ hle' args hargs => ?_
    exact h.call ((hbody _ rfl).mono hle') (.cons ((hscope.mono hle).mono hle') hargs)
  · exact Form.run_follows h form (hscope.mono hle) (hops.mono hle)

theorem invokeStep_follows {scope f : Value} {operands : List Value} (hscope : scope.Confined n)
    (hops : AllConfined n operands) :
    Action.Follows n (m.invokeStep scope f operands) (m'.invokeStep scope f operands)
      Value.Confined := by
  unfold invokeStep
  split
  · exact invokeClosure_follows h _ hscope hops
  · exact invokeForm_follows h _ hscope hops
  · exact (Secure.raise _).follows

theorem callCode_follows {code : FunctionCode} {args : List Value} (hcode : code.Confined n)
    (hargs : AllConfined n args) :
    Action.Follows n (m.callCode .offered code args) (m'.callCode .offered code args)
      Value.Confined := by
  cases code with
  | host f => exact HostFunction.call_follows h f hargs
  | adapter target scope => exact h.invoke hcode.2 hcode.1 (wrap_confined hargs)
  | bound method first named =>
    refine (Secure.getDict named).follows.bind fun k hk d hd => ?_
    refine (namedArguments_secure fun e he => (hd e he).2).follows.bind fun l hl given hgiven => ?_
    have hle := Nat.le_trans hk hl
    refine (Secure.elements (hcode.1.mono hle)).follows.bind fun p hp firsts hfirsts => ?_
    exact SequenceMethod.call_follows h method
      (hfirsts.append (hargs.mono (Nat.le_trans hle hp))) fun a ha => (hgiven a ha).mono hp
  | unbound method =>
    refine SequenceMethod.call_follows h method hargs fun a ha => ?_
    cases ha
  | formBody form =>
    refine (Signature.check_reads _ _).secure.follows.seq fun _ => ?_
    split
    · exact Form.run_follows h form hargs.head hargs.tail
    · exact (Secure.raise _).follows
  | pointSum =>
    unfold callCode
    dsimp only
    split
    · exact (pointSum_secure hargs.head).follows
    · exact (Secure.raise _).follows

theorem callFunction_follows (r : FunctionRef) {args : List Value} (hargs : AllConfined n args) :
    Action.Follows n (m.callFunction .offered r args) (m'.callFunction .offered r args)
      Value.Confined := by
  have hread : Secure n (Action.gets (·.function? r)) fun k found =>
      ∀ cell, found = some cell → cell.code.Confined k :=
    .gets fun s hs _ cell hcell => (hs.functions r cell hcell).2
  refine hread.follows.bind fun _ hle found hfound => ?_
  split
  · exact callCode_follows h (hfound _ rfl) (hargs.mono hle)
  · exact (Secure.ret trivial).follows

theorem callMethod_follows {receiver : Value} (method : Method) {args : List Value}
    (hr : receiver.Confined n) (hargs : AllConfined n args) :
    Action.Follows n (m.callMethod .offered receiver method args)
      (m'.callMethod .offered receiver method args) Value.Confined := by
  unfold callMethod
  split
  · exact (TextMethod.call_secure _ _ hargs).follows
  · exact (BytesMethod.call_secure hr _ _ hargs).follows
  · exact (ListMethod.call_secure _ _ hargs).follows
  · exact (TupleMethod.call_secure _ _ _).follows
  · exact (SetMethod.call_secure _ hr (Value.confined_set.mp hr) hargs).follows
  · exact (NumberMethod.callDouble_secure _ _ _).follows
  · exact (NumberMethod.callBool_secure _ _ hargs).follows
  · exact (NumberMethod.callInt_secure _ _ _ hargs).follows
  · exact ScopeMethod.call_follows h _ hr hargs
  · refine Secure.follows ?_
    refine (Signature.check_reads _ _).secure.seq fun _ => Secure.newId.seq fun _ => .ret ?_
    exact confined_host (hargs.getD 0 trivial) (hargs.getD 1 trivial)
  · refine (Signature.check_reads _ _).secure.follows.seq fun _ => ?_
    exact h.invoke (hargs.getD 0 trivial) hr (hargs.drop 1)
  · exact callFunction_follows h _ (.cons hr hargs)
  · exact (Secure.raise _).follows

theorem callStep_follows {f : Value} {args : List Value} (hf : f.Confined n)
    (hargs : AllConfined n args) :
    Action.Follows n (m.callStep .offered f args) (m'.callStep .offered f args) Value.Confined := by
  cases f with
  | closure r =>
    refine (Property.member_secure hf (.inl (by decide))).follows.bind fun _ hle scope hscope => ?_
    exact h.invoke hscope (hf.mono hle) (wrap_confined (hargs.mono hle))
  | form form =>
    have hnil : Value.nil.Outer n := .inr trivial
    refine (Secure.addEmptyScope hnil).follows.bind fun _ hle scope hscope => ?_
    exact h.invoke hscope (hf.mono hle) (wrap_confined (hargs.mono hle))
  | function r => exact callFunction_follows h r hargs
  | method receiver method id =>
    exact callMethod_follows h method (Value.confined_method.mp hf) hargs
  | _ => exact (Secure.raise _).follows

/-! ## Evaluation -/

omit h in
theorem numberOf_secure (text : String) : Secure n (numberOf text) Value.Confined := by
  unfold numberOf
  split
  · exact .ret trivial
  · exact .newFloat _
  · exact .raise _

omit h in
theorem keywordValue_secure (text : String) : Secure n (keywordValue text) Value.Confined := by
  unfold keywordValue
  split
  · exact .ret trivial
  · exact .ret trivial
  · exact .ret trivial
  · exact .ret trivial
  · exact .raise _

omit h in
theorem nodes_confined {items : List (Node Value)} (hi : ∀ e ∈ items, e.Confined n) :
    AllConfined n (items.map .node) := .map fun e he => Value.confined_node.mpr (hi e he)

theorem evalNode_follows {scope : Value} {e : Expr} (hscope : scope.Confined n)
    (he : Node.Confined n e) :
    Action.Follows n (m.evalNode scope e) (m'.evalNode scope e) Value.Confined := by
  cases e with
  | host value line serial => exact (Secure.ret he.1).follows
  | leaf kind text mark =>
    cases kind with
    | string => exact (Secure.ret trivial).follows
    | number => exact (numberOf_secure text).follows
    | key => exact (Secure.ret (Value.confined_node.mpr he)).follows
    | rest => exact (Secure.ret (Value.confined_node.mpr he)).follows
    | keyword => exact (keywordValue_secure text).follows
    | identifier => exact lookup_follows h hscope trivial
  | group kind items mark =>
    have hitems := Node.confined_group.mp he
    cases kind with
    | array =>
      exact (elements_follows h hscope (nodes_confined hitems)).bind fun _ _ _ hi =>
        (Secure.newList hi).follows
    | object =>
      exact (entries_follows h hscope (nodes_confined hitems)).bind fun _ _ _ hd =>
        (Secure.newDict hd).follows
    | call =>
      cases items with
      | nil => exact (Secure.raise _).follows
      | cons head operands =>
        have hhead := Value.confined_node.mpr (hitems head List.mem_cons_self)
        have hops := nodes_confined fun e he => hitems e (List.mem_cons_of_mem _ he)
        exact h.apply hscope hhead hops trivial
    | root => exact ((Secure.computeAny _).seq fun _ => .raise _).follows

theorem evalStep_follows {scope operand : Value} (hscope : scope.Confined n)
    (hop : operand.Confined n) :
    Action.Follows n (m.evalStep scope operand) (m'.evalStep scope operand) Value.Confined := by
  cases operand with
  | nil => exact (Secure.ret trivial).follows
  | node e => exact evalNode_follows h hscope (Value.confined_node.mp hop)
  | _ => exact ((Secure.computeAny _).seq fun _ => .raise _).follows

end Machine

end Lisplet
