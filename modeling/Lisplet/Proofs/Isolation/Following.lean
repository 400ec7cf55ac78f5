import Lisplet.Evaluation.Application
import Lisplet.Evaluation.Pattern
import Lisplet.Proofs.Isolation.Scopes

/-!
# Machines that follow each other

One machine follows another if each of its three operations does, for confined operands. What is
written against a machine then follows too, since between the operations of the machine it only does
what is secure.
-/

namespace Lisplet

open Lisplet.Action

variable {n : Nat}

namespace Action.Follows

variable {α β : Type} {Q : Nat → α → Prop} {R : Nat → β → Prop}

/-- What comes second does not depend on what the first part gives. -/
theorem seq {a b : Action α} {f g : α → Action β} (h : Follows n a b Q)
    (hf : ∀ v, Follows n (f v) (g v) R) : Follows n (a >>= f) (b >>= g) R :=
  h.bind fun _ hle v _ => (hf v).mono hle

end Action.Follows

/-- Each operation of the second machine follows that of the first one. -/
structure Machine.Follows (m m' : Machine) : Prop where
  fuel : m.fuel = m'.fuel
  eval : ∀ {n : Nat} {scope operand : Value}, scope.Confined n → operand.Confined n →
    Action.Follows n (m.eval scope operand) (m'.eval scope operand) Value.Confined
  invoke : ∀ {n : Nat} {scope f : Value} {operands : List Value}, scope.Confined n → f.Confined n →
    AllConfined n operands →
    Action.Follows n (m.invoke scope f operands) (m'.invoke scope f operands) Value.Confined
  call : ∀ {n : Nat} {f : Value} {args : List Value}, f.Confined n → AllConfined n args →
    Action.Follows n (m.call f args) (m'.call f args) Value.Confined
  apply : ∀ {n : Nat} {scope head : Value} {operands : List Value} {line : Value},
    scope.Confined n → head.Confined n → AllConfined n operands → line.Confined n →
    Action.Follows n (m.apply scope head operands line) (m'.apply scope head operands line)
      Value.Confined

/-- A variable and the path of properties below it are confined. -/
def PathConfined (n : Nat) (parts : Value × List Value) : Prop :=
  parts.1.Confined n ∧ AllConfined n parts.2

instance : Upward PathConfined := ⟨fun h hle => ⟨h.1.mono hle, h.2.mono hle⟩⟩

namespace Machine

variable {m m' : Machine} (h : m.Follows m')

include h

/-- A method of a value is looked up by its name and called. -/
theorem callMember_follows {v : Value} {name : String} {args : List Value} (hv : v.Confined n)
    (hname : name ≠ "parent") (hargs : AllConfined n args) :
    Action.Follows n (do m.call (← Property.member v name) args)
      (do m'.call (← Property.member v name) args) Value.Confined :=
  (Property.member_secure hv (.inl hname)).follows.bind fun _ hle _ hf =>
    h.call hf (hargs.mono hle)

/-! ## Scopes -/

omit h in
theorem dottedName_confined (text : String) : AllConfined n (dottedName text).2 := by
  unfold dottedName
  split
  · exact .nil
  · exact .map fun _ _ => trivial

omit h in
theorem unpacked_secure {parts : Value} (hparts : parts.Confined n) :
    Secure n (do
      match ← Action.elements parts with
      | base :: path => return (base, path)
      | [] => .raise (.plain .value "not enough values to unpack (expected at least 1, got 0)"))
      PathConfined := by
  refine (Secure.elements hparts).bind fun _ _ items hi => ?_
  split
  · exact .ret ⟨hi.head, hi.tail⟩
  · exact .raise _

theorem segments_follows {name : Value} (hname : name.Confined n) :
    Action.Follows n (m.segments name) (m'.segments name) PathConfined := by
  have hdot : ∀ k, AllConfined k [.str "."] := fun _ => .cons trivial .nil
  unfold segments
  split
  · exact (Secure.ret ⟨trivial, dottedName_confined _⟩).follows
  · refine (Property.member_secure hname (.inl (by decide))).follows.bind fun k _ f hf => ?_
    refine (h.call hf (hdot k)).bind fun l _ parts hparts => Secure.follows ?_
    split
    · exact unpacked_secure hparts
    · exact unpacked_secure hparts
    · exact .raise _

theorem lookup_follows {scope name : Value} (hscope : scope.Confined n) (hname : name.Confined n) :
    Action.Follows n (m.lookup scope name) (m'.lookup scope name) Value.Confined := by
  cases scope with
  | scope r =>
    exact (segments_follows h hname).bind fun _ hle parts _ =>
      (ScopeRef.getAt_secure (hscope.mono hle) parts.1 parts.2).follows
  | dict d =>
    refine (Reads.keyOf name).secure.follows.seq fun key => Secure.follows ?_
    exact (Secure.getDict d).bind fun _ _ _ hd => .ret (.getD (fun _ hw => hd.get? hw) trivial)
  | _ => exact callMember_follows h hscope (by decide) (.cons hname .nil)

theorem assign_follows {scope name value : Value} (hscope : scope.Confined n)
    (hname : name.Confined n) (hvalue : value.Confined n) :
    Action.Follows n (m.assign scope name value) (m'.assign scope name value) Value.Confined := by
  cases scope with
  | scope r =>
    exact (segments_follows h hname).bind fun _ hle _ hparts =>
      (ScopeRef.setAt_secure (hscope.mono hle) hparts.1 hparts.2 (hvalue.mono hle)).follows
  | _ => exact callMember_follows h hscope (by decide) (.cons hname (.cons hvalue .nil))

omit h in
theorem checkAssignable_secure {scope : Value} (hscope : scope.Confined n) :
    Secure n (checkAssignable scope) Any := by
  cases scope with
  | scope r => exact .retAny _
  | _ => exact Secure.discard (Property.member_secure hscope (.inl (by decide)))

theorem isReadOnly_follows {scope name : Value} (hscope : scope.Confined n)
    (hname : name.Confined n) :
    Action.Follows n (m.isReadOnly scope name) (m'.isReadOnly scope name) Any := by
  cases scope with
  | scope r => exact (ScopeRef.isReadOnly_secure r name).follows
  | _ =>
    exact (Property.member_secure hscope (.inl (by decide))).follows.bind fun _ hle _ hf =>
      (h.call hf (.cons (hname.mono hle) .nil)).seq fun v => (Reads.truthy v).secure.follows

/-! ## Several operands -/

theorem evalAll_follows {scope : Value} {operands : List Value} (hscope : scope.Confined n)
    (hops : AllConfined n operands) :
    Action.Follows n (m.evalAll scope operands) (m'.evalAll scope operands) AllConfined := by
  induction operands generalizing n with
  | nil => exact (Secure.ret .nil).follows
  | cons operand rest ih =>
    refine (h.eval hscope hops.head).bind fun _ hle v hv => ?_
    refine (ih (hscope.mono hle) (hops.tail.mono hle)).bind fun _ hle' vs hvs => ?_
    exact (Secure.ret (.cons (hv.mono hle') hvs)).follows

/-! ## Literals -/

theorem spread_follows {scope name : Value} (hscope : scope.Confined n) (hname : name.Confined n) :
    Action.Follows n (m.spread scope name) (m'.spread scope name) AllConfined := by
  refine (lookup_follows h hscope hname).bind fun _ _ v hv => Secure.follows ?_
  split
  · exact (Secure.getList _).bind fun _ _ _ hi => .ret hi
  · exact .ret (Value.confined_tuple.mp hv)
  · split
    · exact .ret .nil
    · exact (Secure.computeAny _).seq fun _ => .raise _

theorem itemElements_follows {scope item : Value} (hscope : scope.Confined n)
    (hitem : item.Confined n) :
    Action.Follows n (m.itemElements scope item) (m'.itemElements scope item) AllConfined := by
  refine (Operand.isA_secure _ hitem).follows.seq fun isRest => ?_
  split
  · exact (Operand.content_secure hitem).follows.bind fun _ hle _ hname =>
      spread_follows h (hscope.mono hle) hname
  · exact (h.eval hscope hitem).bind fun _ _ _ hv => (Secure.ret (.cons hv .nil)).follows

theorem elements_follows {scope : Value} {items : List Value} (hscope : scope.Confined n)
    (hi : AllConfined n items) :
    Action.Follows n (m.elements scope items) (m'.elements scope items) AllConfined := by
  induction items generalizing n with
  | nil => exact (Secure.ret .nil).follows
  | cons item rest ih =>
    refine (itemElements_follows h hscope hi.head).bind fun _ hle here hhere => ?_
    refine (ih (hscope.mono hle) (hi.tail.mono hle)).bind fun _ hle' others hothers => ?_
    exact (Secure.ret ((hhere.mono hle').append hothers)).follows

omit h in
theorem insertInto_secure {d : Dict} {key value : Value} (hd : d.Confined n) (hk : key.Confined n)
    (hv : value.Confined n) : Secure n (insertInto d key value) Dict.Confined :=
  (Reads.keyOf key).secure.seq fun _ => .ret (hd.insert hk hv)

omit h in
theorem beginsEntry_secure {item : Value} (hitem : item.Confined n) :
    Secure n (beginsEntry item) Any := by
  cases item with
  | nil => exact .retAny _
  | _ => exact (Operand.kind_secure hitem).seq fun _ => .retAny _

omit h in
/-- A key and its value are added to the entries of a literal before it goes on. -/
theorem insertContent_follows {d : Dict} {item value : Value} {f g : Dict → Action Dict}
    (hd : d.Confined n) (hitem : item.Confined n) (hv : value.Confined n)
    (hf : ∀ k, n ≤ k → ∀ d, Dict.Confined k d → Action.Follows k (f d) (g d) Dict.Confined) :
    Action.Follows n (do f (← insertInto d (← Operand.content item) value))
      (do g (← insertInto d (← Operand.content item) value)) Dict.Confined :=
  (Operand.content_secure hitem).follows.bind fun _ hle _ hk =>
    (insertInto_secure (hd.mono hle) hk (hv.mono hle)).follows.bind fun _ hle' d' hd' =>
      hf _ (Nat.le_trans hle hle') d' hd'

theorem entriesInto_follows {scope : Value} : ∀ (items : List Value) {n : Nat} {d : Dict},
    scope.Confined n → d.Confined n → AllConfined n items →
    Action.Follows n (m.entriesInto scope d items) (m'.entriesInto scope d items) Dict.Confined
  | [], n, d, _, hd, _ => (Secure.ret hd).follows
  | item :: rest, n, d, hscope, hd, hi => by
    unfold entriesInto
    refine (Operand.kind_secure hi.head).follows.seq fun kind => ?_
    split
    · refine (Operand.content_secure hi.head).follows.bind fun _ hle name hname => ?_
      refine (lookup_follows h (hscope.mono hle) hname).bind fun _ hle' v hv => ?_
      refine (Property.own_secure hv).follows.bind fun _ hle'' own hown => ?_
      have hle := Nat.le_trans (Nat.le_trans hle hle') hle''
      exact entriesInto_follows rest (hscope.mono hle) ((hd.mono hle).update hown)
        (hi.tail.mono hle)
    · split
      · have hvoid : Value.undefined.Confined n := trivial
        cases rest with
        | nil =>
          exact (Operand.content_secure hi.head).follows.bind fun _ hle _ hk =>
            (insertInto_secure (hd.mono hle) hk (hvoid.mono hle)).follows
        | cons next others =>
          refine (beginsEntry_secure hi.tail.head).follows.seq fun isNew => ?_
          split
          · refine insertContent_follows hd hi.head hvoid fun _ hle d' hd' => ?_
            exact entriesInto_follows (next :: others) (hscope.mono hle) hd' (hi.tail.mono hle)
          · refine (h.eval hscope hi.tail.head).bind fun _ hle v hv => ?_
            refine insertContent_follows (hd.mono hle) (hi.head.mono hle) hv
              fun _ hle' d' hd' => ?_
            have hle := Nat.le_trans hle hle'
            exact entriesInto_follows others (hscope.mono hle) hd' (hi.tail.tail.mono hle)
      · exact entriesInto_follows rest hscope hd hi.tail

theorem entries_follows {scope : Value} {items : List Value} (hscope : scope.Confined n)
    (hi : AllConfined n items) :
    Action.Follows n (m.entries scope items) (m'.entries scope items) Dict.Confined :=
  entriesInto_follows h items hscope Dict.confined_empty hi

/-! ## Applications -/

omit h in
theorem headName_secure {head : Value} (hhead : head.Confined n) : Secure n (headName head) Any := by
  refine (Operand.content_secure hhead).bind fun _ hle content _ => ?_
  split
  · exact .computeAny _
  · exact Operand.kindText_secure (hhead.mono hle)

theorem headValue_follows {scope head : Value} (hscope : scope.Confined n)
    (hhead : head.Confined n) :
    Action.Follows n (m.headValue scope head) (m'.headValue scope head) Value.Confined := by
  refine (Operand.isA_secure _ hhead).follows.seq fun isName => ?_
  split
  · exact (Operand.content_secure hhead).follows.bind fun _ hle _ hname =>
      lookup_follows h (hscope.mono hle) hname
  · exact h.eval hscope hhead

theorem application_follows {scope head : Value} {operands : List Value} (hscope : scope.Confined n)
    (hhead : head.Confined n) (hops : AllConfined n operands) :
    Action.Follows n (m.application scope head operands) (m'.application scope head operands)
      Value.Confined := by
  refine (headValue_follows h hscope hhead).bind fun _ hle f hf => ?_
  split
  · exact h.invoke (hscope.mono hle) hf (hops.mono hle)
  · split
    · exact (elements_follows h (hscope.mono hle) (hops.mono hle)).bind fun _ hle' _ hargs =>
        h.call (hf.mono hle') hargs
    · exact ((headName_secure (hhead.mono hle)).seq fun _ => .raise _).follows

theorem applyStep_follows {scope head : Value} {operands : List Value} (line : Value)
    (hscope : scope.Confined n) (hhead : head.Confined n) (hops : AllConfined n operands) :
    Action.Follows n (m.applyStep scope head operands line) (m'.applyStep scope head operands line)
      Value.Confined :=
  (application_follows h hscope hhead hops).framed _

end Machine

/-! ## Folds -/

/-- What a step of a fold has collected satisfies a condition. -/
def StepSatisfies {σ : Type} (P : Nat → σ → Prop) (n : Nat) : ForInStep σ → Prop
  | .done acc => P n acc
  | .yield acc => P n acc

instance {σ : Type} {P : Nat → σ → Prop} [Upward P] : Upward (StepSatisfies P) where
  mono := fun {_ _ step} h hle => by
    cases step with
    | done acc => exact Upward.mono (Q := P) h hle
    | yield acc => exact Upward.mono (Q := P) h hle

theorem stepSatisfies_any {σ : Type} (step : ForInStep σ) : StepSatisfies Any n step := by
  cases step <;> trivial

theorem Action.Secure.yield {σ : Type} {P : Nat → σ → Prop} [Upward P] {acc : σ} (h : P n acc) :
    Secure n (pure (.yield acc)) (StepSatisfies P) := .ret h

theorem Action.Secure.stop {σ : Type} {P : Nat → σ → Prop} [Upward P] {acc : σ} (h : P n acc) :
    Secure n (pure (.done acc)) (StepSatisfies P) := .ret h

/-- The next element, if there is one, is confined. -/
def NextConfined (n : Nat) (next : Option (Value × Cursor)) : Prop :=
  ∀ v c, next = some (v, c) → v.Confined n

instance : Upward NextConfined := ⟨fun h hle v c hv => (h v c hv).mono hle⟩

theorem Cursor.next?_secure (c : Cursor) : Secure n c.next? NextConfined := by
  cases c with
  | list r i =>
    refine (Secure.getList r).bind fun _ _ items hi => .ret fun v c hnext => ?_
    obtain ⟨w, hw, heq⟩ := Option.map_eq_some_iff.mp hnext
    cases heq
    exact hi _ (Array.mem_toList_iff.mpr (Array.mem_of_getElem? hw))
  | iterator r =>
    refine (Secure.getIterator r).bind fun _ _ items hi => ?_
    split
    · refine .ret fun v c hnext => ?_
      cases hnext
    · refine (Secure.setIterator r hi.tail).seq fun _ => .ret fun v c hnext => ?_
      cases hnext
      exact hi.head
  | dict r i size =>
    refine (Secure.getDict r).bind fun _ _ d hd => ?_
    split
    · exact .raise _
    · refine .ret fun v c hnext => ?_
      obtain ⟨e, he, heq⟩ := Option.map_eq_some_iff.mp hnext
      cases heq
      exact (hd e (List.mem_of_getElem? he)).1

section Fold

variable {σ : Type} {P : Nat → σ → Prop} [Upward P] {step step' : Value → σ → Action (ForInStep σ)}
  (hstep : ∀ k, n ≤ k → ∀ v acc, v.Confined k → P k acc →
    Action.Follows k (step v acc) (step' v acc) (StepSatisfies P))

include hstep

theorem Cursor.fold_follows (fuel : Nat) (c : Cursor) {k : Nat} (hk : n ≤ k) {acc : σ}
    (hacc : P k acc) : Action.Follows k (fold step fuel c acc) (fold step' fuel c acc) P := by
  induction fuel generalizing k c acc with
  | zero => exact Secure.exhausted.follows
  | succ fuel ih =>
    refine (next?_secure c).follows.bind fun _ hle next hnext => ?_
    split
    · exact (Secure.ret (Upward.mono hacc hle)).follows
    · rename_i v c
      refine (hstep _ (Nat.le_trans hk hle) v acc (hnext v c rfl) (Upward.mono hacc hle)).bind
        fun _ hle' result hresult => ?_
      split
      · exact (Secure.ret (Q := P) hresult).follows
      · exact ih c (Nat.le_trans hk (Nat.le_trans hle hle')) hresult

theorem foldItems_follows (items : List Value) {k : Nat} (hk : n ≤ k) {acc : σ}
    (hi : AllConfined k items) (hacc : P k acc) :
    Action.Follows k (foldItems step items acc) (foldItems step' items acc) P := by
  induction items generalizing k acc with
  | nil => exact (Secure.ret hacc).follows
  | cons v rest ih =>
    refine (hstep _ hk v acc hi.head hacc).bind fun _ hle result hresult => ?_
    split
    · exact (Secure.ret (Q := P) hresult).follows
    · exact ih (Nat.le_trans hk hle) (hi.tail.mono hle) hresult

theorem Machine.foldElements_follows {m m' : Machine} (h : m.Follows m') {v : Value} {init : σ}
    (hv : v.Confined n) (hinit : P n init) :
    Action.Follows n (m.foldElements v init step) (m'.foldElements v init step') P := by
  have hcursor : ∀ k, n ≤ k → ∀ c : Cursor, Action.Follows k (Cursor.fold step m.fuel c init)
      (Cursor.fold step' m'.fuel c init) P := by
    intro k hk c
    rw [h.fuel]
    exact Cursor.fold_follows hstep _ c hk (Upward.mono hinit hk)
  have hread : Secure n (Action.compute (·.elements v)) AllConfined :=
    .compute fun s hs hn items hi => hs.elements (hv.mono hn) hi
  cases v with
  | list r => exact hcursor n (Nat.le_refl n) _
  | iterator r => exact hcursor n (Nat.le_refl n) _
  | dict r => exact (Secure.getDict r).follows.bind fun k hk _ _ => hcursor k hk _
  | _ =>
    exact hread.follows.bind fun _ hk items hi =>
      foldItems_follows hstep items hk hi (Upward.mono hinit hk)

end Fold

theorem Machine.block_follows {m m' : Machine} (h : m.Follows m') {scope body : Value}
    (hscope : scope.Confined n) (hbody : body.Confined n) :
    Action.Follows n (m.block scope body) (m'.block scope body) Value.Confined := by
  refine foldElements_follows (fun k hk operand _ hop _ => ?_) h hbody trivial
  exact (h.eval (hscope.mono hk) hop).bind fun _ _ _ hv => (Secure.yield hv).follows

/-! ## Patterns -/

namespace Pattern

/-- What is taken apart by position is confined. -/
def Source.Confined (n : Nat) : Source → Prop
  | .list _ => True
  | .fixed items => AllConfined n items

instance : Upward Source.Confined where
  mono := fun {_ _ source} h hle => by
    cases source with
    | list r => trivial
    | fixed items => exact AllConfined.mono h hle

theorem Source.elements_secure {source : Source} (h : source.Confined n) :
    Secure n source.elements AllConfined := by
  cases source with
  | list r => exact (Secure.getList r).bind fun _ _ _ hi => .ret hi
  | fixed items => exact .ret h

theorem sourceOf_secure {v : Value} (hv : v.Confined n) : Secure n (sourceOf v) Source.Confined := by
  unfold sourceOf
  split
  · exact .ret trivial
  · split
    · exact (Secure.elements hv).bind fun _ _ items hi =>
        .ret (a := Source.fixed items) hi
    · exact (Secure.computeAny _).seq fun _ => .raise _

theorem unselected_confined {d : Dict} (hd : d.Confined n) (keys : List Key) :
    (unselected d keys).Confined n := fun e he => hd e (List.mem_filter.mp he).1

variable {m m' : Machine} (h : m.Follows m')

include h

/-- The content of a pattern's item is bound to a value. -/
theorem assignContent_follows {σ : Type} {scope item value : Value} (result : ForInStep σ)
    (hscope : scope.Confined n) (hitem : item.Confined n) (hvalue : value.Confined n) :
    Action.Follows n (do
        let _ ← m.assign scope (← Operand.content item) value
        return result)
      (do
        let _ ← m'.assign scope (← Operand.content item) value
        return result) Any :=
  (Operand.content_secure hitem).follows.bind fun _ hle _ hname =>
    (Machine.assign_follows h (hscope.mono hle) hname (hvalue.mono hle)).seq fun _ =>
      (Secure.retAny _).follows

theorem bindPosition_follows {scope item : Value} {source : Source} (i : Nat)
    (hscope : scope.Confined n) (hsource : source.Confined n) (hitem : item.Confined n) :
    Action.Follows n (bindPosition m scope source item i) (bindPosition m' scope source item i)
      Any := by
  refine (Operand.kind_secure hitem).follows.seq fun kind => ?_
  split
  · refine (Source.elements_secure hsource).follows.bind fun _ hle items hi => ?_
    exact assignContent_follows h _ (hscope.mono hle) (hitem.mono hle)
      (.getD (fun _ hv => hi.getElem? hv) trivial)
  · split
    · refine (Source.elements_secure hsource).follows.bind fun _ hle items hi => ?_
      have hrest : AllConfined _ (items.drop i).toArray.toList := hi.drop i
      refine (Secure.newList hrest).follows.bind fun _ hle' rest hrest => ?_
      have hle := Nat.le_trans hle hle'
      exact assignContent_follows h _ (hscope.mono hle) (hitem.mono hle) hrest
    · exact (Secure.retAny _).follows

theorem bindArray_follows {scope items v : Value} (hscope : scope.Confined n)
    (hitems : items.Confined n) (hv : v.Confined n) :
    Action.Follows n (bindArray m scope items v) (bindArray m' scope items v) Any := by
  refine (sourceOf_secure hv).follows.bind fun k hle source hsource => ?_
  have hfold : Action.Follows k (m.foldElements items 0 (bindPosition m scope source))
      (m'.foldElements items 0 (bindPosition m' scope source)) Any := by
    refine Machine.foldElements_follows (fun l hl item i hitem _ => ?_) h (hitems.mono hle) trivial
    exact (bindPosition_follows h i (hscope.mono (Nat.le_trans hle hl)) (Upward.mono hsource hl)
      hitem).weaken fun _ step _ => stepSatisfies_any step
  exact hfold.seq fun _ => (Secure.retAny _).follows

theorem bindProperty_follows {scope v item : Value} (selected : List Key)
    (hscope : scope.Confined n) (hv : v.Confined n) (hitem : item.Confined n) :
    Action.Follows n (bindProperty m scope v item selected) (bindProperty m' scope v item selected)
      Any := by
  refine (Operand.kind_secure hitem).follows.seq fun kind => ?_
  split
  · refine (Operand.content_secure hitem).follows.bind fun _ hle name hname => ?_
    refine (Reads.keyOf name).secure.follows.seq fun key => ?_
    refine (Machine.checkAssignable_secure (hscope.mono hle)).follows.seq fun _ => ?_
    refine (Property.get_secure (hv.mono hle) name).follows.bind fun _ hle' part hpart => ?_
    have hle := Nat.le_trans hle hle'
    exact (Machine.assign_follows h (hscope.mono hle) (hname.mono hle') hpart).seq fun _ =>
      (Secure.retAny _).follows
  · split
    · refine (Property.own_secure hv).follows.bind fun _ hle own hown => ?_
      refine (Secure.newDict (unselected_confined hown selected)).follows.bind
        fun _ hle' rest hrest => ?_
      have hle := Nat.le_trans hle hle'
      exact assignContent_follows h _ (hscope.mono hle) (hitem.mono hle) hrest
    · exact (Secure.retAny _).follows

theorem bindObject_follows {scope items v : Value} (hscope : scope.Confined n)
    (hitems : items.Confined n) (hv : v.Confined n) :
    Action.Follows n (bindObject m scope items v) (bindObject m' scope items v) Any := by
  have hfold : Action.Follows n (m.foldElements items [] (bindProperty m scope v))
      (m'.foldElements items [] (bindProperty m' scope v)) Any := by
    refine Machine.foldElements_follows (fun l hl item selected hitem _ => ?_) h hitems trivial
    exact (bindProperty_follows h selected (hscope.mono hl) (hv.mono hl) hitem).weaken
      fun _ step _ => stepSatisfies_any step
  exact hfold.seq fun _ => (Secure.retAny _).follows

theorem bindTarget_follows {scope target v : Value} (hscope : scope.Confined n)
    (htarget : target.Confined n) (hv : v.Confined n) :
    Action.Follows n (bindTarget m scope target v) (bindTarget m' scope target v)
      Value.Confined := by
  refine (Operand.kind_secure htarget).follows.seq fun kind => ?_
  have hcontent := (Operand.content_secure htarget).follows
  split
  · refine hcontent.bind fun _ hle items hitems => ?_
    exact (bindArray_follows h (hscope.mono hle) hitems (hv.mono hle)).seq fun _ =>
      (Secure.ret trivial).follows
  · split
    · refine hcontent.bind fun _ hle items hitems => ?_
      exact (bindObject_follows h (hscope.mono hle) hitems (hv.mono hle)).seq fun _ =>
        (Secure.ret trivial).follows
    · split
      · exact hcontent.bind fun _ hle _ hname =>
          Machine.assign_follows h (hscope.mono hle) hname (hv.mono hle)
      · exact ((Operand.described_secure htarget).seq fun _ => .raise _).follows

end Pattern

end Lisplet
