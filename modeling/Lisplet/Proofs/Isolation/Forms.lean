import Lisplet.Evaluation.Form
import Lisplet.Proofs.Isolation.Collections
import Lisplet.Proofs.Isolation.Following

/-!
# Forms

Every form follows its machine: it makes closures and functions that remember the scope it is
invoked from, binds names in this scope, and reads and writes properties, all of which is secure.
-/

namespace Lisplet.Form

open Lisplet.Action

variable {n : Nat} {m m' : Machine}

theorem operand_confined {operands : List Value} (h : AllConfined n operands) (i : Nat) :
    (operand operands i).Confined n := h.getD i trivial

/-! ## Names and functions -/

section

variable (h : m.Follows m')

include h

theorem checkRebind_follows {scope target : Value} (hscope : scope.Confined n)
    (htarget : target.Confined n) :
    Action.Follows n (checkRebind m scope target) (checkRebind m' scope target) Any := by
  refine (Operand.isA_secure _ htarget).follows.seq fun isName => ?_
  split
  · refine (Operand.content_secure htarget).follows.bind fun _ hle name hname => ?_
    refine (Machine.isReadOnly_follows h (hscope.mono hle) hname).seq fun found => ?_
    split
    · exact ((Secure.computeAny _).seq fun _ => .raise _).follows
    · exact (Secure.retAny _).follows
  · exact (Secure.retAny _).follows

theorem runAssign_follows {scope : Value} {operands : List Value} (hscope : scope.Confined n)
    (hops : AllConfined n operands) :
    Action.Follows n (runAssign m scope operands) (runAssign m' scope operands)
      Value.Confined := by
  have htarget := operand_confined hops 0
  unfold runAssign
  split
  · exact (Secure.raise _).follows
  · exact (h.eval hscope (operand_confined hops 1)).bind fun _ hle _ hv =>
      Pattern.bindTarget_follows h (hscope.mono hle) (htarget.mono hle) hv

theorem runDefine_follows {scope : Value} {operands : List Value} (hscope : scope.Confined n)
    (hops : AllConfined n operands) :
    Action.Follows n (runDefine m scope operands) (runDefine m' scope operands)
      Value.Confined := by
  have htarget := operand_confined hops 0
  unfold runDefine
  split
  · exact (Secure.raise _).follows
  · exact (checkRebind_follows h hscope htarget).seq fun _ => runAssign_follows h hscope hops

omit h in
theorem makeClosure_secure {scope : Value} {operands : List Value} (hscope : scope.Confined n)
    (hops : AllConfined n operands) : Secure n (makeClosure scope operands) Value.Confined := by
  have hparams := operand_confined hops 0
  unfold makeClosure
  split
  · exact .raise _
  · refine (Operand.isA_secure _ hparams).seq fun isArray => ?_
    split
    · refine (Secure.newTuple (hops.drop 1)).bind fun _ hle body hbody => ?_
      refine Secure.seq (Q := Any) (.make (fun _ => rfl) fun s hs hn => ⟨?_, trivial⟩)
        fun _ => .ret trivial
      have hle' := Nat.le_trans hle hn
      exact hs.addClosure ⟨hparams.mono hle', hbody.mono hn, hscope.mono hle'⟩
    · exact (Operand.described_secure hparams).seq fun _ => .raise _

theorem runDefineFunction_follows {scope : Value} {operands : List Value}
    (hscope : scope.Confined n) (hops : AllConfined n operands) :
    Action.Follows n (runDefineFunction m scope operands) (runDefineFunction m' scope operands)
      Value.Confined := by
  have hname := operand_confined hops 0
  unfold runDefineFunction
  split
  · exact (Secure.raise _).follows
  · refine (Operand.isA_secure _ hname).follows.seq fun isName => ?_
    split
    · refine (checkRebind_follows h hscope hname).seq fun _ => ?_
      refine (Machine.checkAssignable_secure hscope).follows.seq fun _ => ?_
      refine (Operand.content_secure hname).follows.bind fun _ hle name hname => ?_
      refine (makeClosure_secure (hscope.mono hle) ((hops.drop 1).mono hle)).follows.bind
        fun _ hle' f hf => ?_
      exact Machine.assign_follows h ((hscope.mono hle).mono hle') (hname.mono hle') hf
    · exact ((Operand.described_secure hname).seq fun _ => .raise _).follows

theorem languageFunction?_follows {scope : Value} {operands : List Value}
    (hscope : scope.Confined n) (hops : AllConfined n operands) :
    Action.Follows n (languageFunction? m scope operands) (languageFunction? m' scope operands)
      OptionConfined := by
  have htarget := operand_confined hops 0
  have hfunction : ∀ k, ∀ fn : Value, fn.Confined k → Secure k
      (if fn.isLanguageFunction then pure (some fn)
        else Action.raise (.notAdaptable fn.shortTypeName)) OptionConfined := by
    intro k fn hfn
    split
    · exact .ret (.some hfn)
    · exact .raise _
  unfold languageFunction?
  split
  · exact (Secure.ret .none).follows
  · refine (Operand.isA_secure _ htarget).follows.seq fun isArray => ?_
    split
    · exact (makeClosure_secure hscope hops).follows.bind fun k _ fn hfn =>
        (hfunction k fn hfn).follows
    · exact (h.eval hscope htarget).bind fun k _ fn hfn => (hfunction k fn hfn).follows

theorem runAdapt_follows {scope : Value} {operands : List Value} (hscope : scope.Confined n)
    (hops : AllConfined n operands) :
    Action.Follows n (runAdapt m scope operands) (runAdapt m' scope operands) Value.Confined := by
  refine (languageFunction?_follows h hscope hops).bind fun _ hle fn hfn => ?_
  split
  · next target =>
    have hcode : (FunctionCode.adapter target scope).Confined _ := ⟨hfn _ rfl, hscope.mono hle⟩
    exact (Secure.newFunction hcode).follows
  · exact (Secure.ret trivial).follows

/-! ## Output and choice -/

omit h in
theorem printAll_secure (isFirst : Bool) (items : List Value) :
    Secure n (printAll isFirst items) Any := by
  induction items generalizing isFirst with
  | nil => exact .write _
  | cons v rest ih =>
    have hprint : Secure n (do
        Action.write (← Action.compute (·.plain v))
        printAll false rest) Any :=
      (Secure.computeAny _).seq fun _ => (Secure.write _).seq fun _ => ih false
    unfold printAll
    cases isFirst with
    | true => exact hprint
    | false => exact (Secure.write _).seq fun _ => hprint

theorem runPrint_follows {scope : Value} {operands : List Value} (hscope : scope.Confined n)
    (hops : AllConfined n operands) :
    Action.Follows n (runPrint m scope operands) (runPrint m' scope operands) Value.Confined :=
  (Machine.evalAll_follows h hscope hops).seq fun _ =>
    ((printAll_secure _ _).seq fun _ => .ret trivial).follows

theorem runChoose_follows {scope : Value} {operands : List Value} (hscope : scope.Confined n)
    (hops : AllConfined n operands) :
    Action.Follows n (runChoose m scope operands) (runChoose m' scope operands)
      Value.Confined := by
  have hcondition := operand_confined hops 0
  unfold runChoose
  split
  · exact (Secure.raise _).follows
  · refine (h.eval hscope hcondition).seq fun v => ?_
    refine (Reads.truthy v).secure.follows.seq fun truth => ?_
    split
    · exact h.eval hscope (operand_confined hops 1)
    · exact h.eval hscope (operand_confined hops 2)

omit h in
theorem firstTrue_confined (s : Store) : ∀ {values : List Value}, AllConfined n values →
    (firstTrue s values).Confined n
  | [], _ => trivial
  | [_], _ => trivial
  | condition :: result :: rest, hv => by
    unfold firstTrue
    split
    · exact hv.tail.head
    · exact firstTrue_confined s hv.tail.tail

theorem runCond_follows {scope : Value} {operands : List Value} (hscope : scope.Confined n)
    (hops : AllConfined n operands) :
    Action.Follows n (runCond m scope operands) (runCond m' scope operands) Value.Confined :=
  (Machine.elements_follows h hscope hops).bind fun _ _ _ hvalues =>
    (Secure.gets fun s _ hk => (firstTrue_confined s hvalues).mono hk).follows

/-! ## Objects and arrays -/

omit h in
theorem lengthOf_secure (v : Value) : Secure n (lengthOf v) Any := by
  unfold lengthOf
  split
  · split
    · exact .retAny _
    · exact .raise _
    · exact .raise _
  · split
    · exact .retAny _
    · exact .raise _
  · split
    · exact .retAny _
    · split
      · exact .retAny _
      · exact .raise _
    · exact .raise _

omit h in
theorem slot_confined {d : Dict} (hd : d.Confined n) (i : Nat) : (slot d i).Confined n := by
  refine .getD (fun v hv => ?_) trivial
  rcases Option.or_eq_some_iff.mp hv with hv | ⟨_, hv⟩
  · exact hd.get? hv
  · exact hd.get? hv

omit h in
theorem arrayElements_secure {v : Value} (hv : v.Confined n) :
    Secure n (arrayElements v) AllConfined := by
  unfold arrayElements
  split
  · refine (Secure.getDict _).bind fun _ _ d hd => ?_
    dsimp only
    split
    · exact .ret .nil
    · exact (lengthOf_secure _).bind fun _ hle _ _ =>
        .ret (.map fun i _ => slot_confined (hd.mono hle) i)
  · split
    · exact .elements hv
    · exact .ret .nil

theorem mapIndexed_follows {scope fn : Value} {items : List Value} (i : Nat)
    (hscope : scope.Confined n) (hfn : fn.Confined n) (hi : AllConfined n items) :
    Action.Follows n (mapIndexed m scope fn i items) (mapIndexed m' scope fn i items)
      AllConfined := by
  induction items generalizing n i with
  | nil => exact (Secure.ret .nil).follows
  | cons v rest ih =>
    have hv : (Machine.wrap v).Confined n := confined_host hi.head trivial
    have hindex : (Machine.wrap (.int i)).Confined n := confined_host trivial trivial
    refine (h.invoke hscope hfn (.cons hv (.cons hindex .nil))).bind fun _ hle result hresult => ?_
    refine (ih (i + 1) (hscope.mono hle) (hfn.mono hle) (hi.tail.mono hle)).bind
      fun _ hle' results hresults => ?_
    exact (Secure.ret (.cons (hresult.mono hle') hresults)).follows

theorem runArray_follows {scope : Value} {operands : List Value} (hscope : scope.Confined n)
    (hops : AllConfined n operands) :
    Action.Follows n (runArray m scope operands) (runArray m' scope operands) Value.Confined := by
  have hfn : AllConfined n [operand operands 1] := .cons (operand_confined hops 1) .nil
  refine (languageFunction?_follows h hscope hfn).bind fun _ hle fn hfn => ?_
  refine (h.eval (hscope.mono hle) ((operand_confined hops 0).mono hle)).bind fun _ hle' v hv => ?_
  refine (arrayElements_secure hv).follows.bind fun _ hle'' items hitems => ?_
  have hscope := ((hscope.mono hle).mono hle').mono hle''
  split
  · exact (mapIndexed_follows h 0 hscope (((hfn _ rfl).mono hle').mono hle'') hitems).bind
      fun _ _ _ hresults => (Secure.newList hresults).follows
  · exact (Secure.newList hitems).follows

theorem runObject_follows {scope : Value} {operands : List Value} (hscope : scope.Confined n)
    (hops : AllConfined n operands) :
    Action.Follows n (runObject m scope operands) (runObject m' scope operands) Value.Confined :=
  (Machine.entries_follows h hscope hops).bind fun _ _ _ hd => (Secure.newDict hd).follows

theorem runConstruct_follows {scope : Value} {operands : List Value} (hscope : scope.Confined n)
    (hops : AllConfined n operands) :
    Action.Follows n (runConstruct m scope operands) (runConstruct m' scope operands)
      Value.Confined := by
  have hcls := operand_confined hops 0
  unfold runConstruct
  split
  · exact (Secure.raise _).follows
  · refine (h.eval hscope hcls).bind fun _ hle constructor hc => ?_
    split
    · exact (Machine.elements_follows h (hscope.mono hle) ((hops.drop 1).mono hle)).bind
        fun _ hle' _ hargs => h.call (hc.mono hle') hargs
    · exact ((Operand.content_secure (hcls.mono hle)).seq fun _ => .raise _).follows

/-! ## Paths -/

omit h in
theorem keyToString_secure {v : Value} (hv : v.Confined n) :
    Secure n (keyToString v) Value.Confined := by
  unfold keyToString
  split
  · exact .ret (Value.confined_node.mpr trivial)
  · exact .ret hv
  · refine (Operand.isA_secure _ hv).seq fun isKey => ?_
    split
    · refine (Operand.content_secure hv).seq fun _ => (Operand.line_secure hv).seq fun _ => ?_
      exact (Secure.computeAny _).seq fun _ => .ret (Value.confined_node.mpr trivial)
    · exact .ret hv

omit h in
theorem keysToStrings_secure {path : List Value} (hp : AllConfined n path) :
    Secure n (keysToStrings path) AllConfined := by
  induction path with
  | nil => exact .ret .nil
  | cons v rest ih =>
    refine (keyToString_secure hp.head).bind fun _ hle here hhere => ?_
    exact ((ih hp.tail).mono hle).bind fun _ hle' _ hrest => .ret (.cons (hhere.mono hle') hrest)

theorem evalPath_follows {scope : Value} {path : List Value} (hscope : scope.Confined n)
    (hp : AllConfined n path) :
    Action.Follows n (evalPath m scope path) (evalPath m' scope path) AllConfined :=
  (keysToStrings_secure hp).follows.bind fun _ hle _ hkeys =>
    Machine.evalAll_follows h (hscope.mono hle) hkeys

theorem runGetPath_follows {scope : Value} {operands : List Value} (hscope : scope.Confined n)
    (hops : AllConfined n operands) :
    Action.Follows n (runGetPath m scope operands) (runGetPath m' scope operands)
      Value.Confined := by
  have htarget := operand_confined hops 0
  unfold runGetPath
  split
  · exact (Secure.raise _).follows
  · refine (h.eval hscope htarget).bind fun _ hle v hv => ?_
    exact (evalPath_follows h (hscope.mono hle) ((hops.drop 1).mono hle)).bind
      fun _ hle' path _ => (Property.getPath_secure (hv.mono hle') path).follows

theorem runSetPath_follows {scope : Value} {operands : List Value} (hscope : scope.Confined n)
    (hops : AllConfined n operands) :
    Action.Follows n (runSetPath m scope operands) (runSetPath m' scope operands)
      Value.Confined := by
  unfold runSetPath
  dsimp only
  split
  · exact (Secure.raise _).follows
  · rename_i target first second others _
    have hrest := hops.tail
    have hlast : ((first :: second :: others).getLastD .nil).Confined n :=
      hrest _ (by simp [List.getLastD_eq_getLast?, List.getLast?_eq_some_getLast])
    have hpath : AllConfined n (first :: second :: others).dropLast :=
      hrest.of_subset (List.dropLast_subset _)
    refine (h.eval hscope hops.head).bind fun k hk v hv => ?_
    refine (h.eval (hscope.mono hk) (hlast.mono hk)).bind fun l hl value hvalue => ?_
    have hle := Nat.le_trans hk hl
    refine (evalPath_follows h (hscope.mono hle) (hpath.mono hle)).bind fun p hp path hkeys => ?_
    have hv' := (hv.mono hl).mono hp
    refine (Property.setPath_secure hv' hkeys (hvalue.mono hp)).follows.bind fun _ hq _ _ => ?_
    exact (Secure.ret (hv'.mono hq)).follows
  · exact (Secure.raise _).follows

/-! ## Chains -/

omit h in
theorem callParts?_secure {step : Value} (hstep : step.Confined n) :
    Secure n (callParts? step) fun k parts => ∀ p, parts = some p → PathConfined k p := by
  have hup : Upward fun k (parts : Option (Value × List Value)) =>
      ∀ p, parts = some p → PathConfined k p :=
    ⟨fun hparts hle p hp => Upward.mono (hparts p hp) hle⟩
  have hnone : ∀ k, Secure k (pure none) fun k (parts : Option (Value × List Value)) =>
      ∀ p, parts = some p → PathConfined k p := by
    refine fun k => .ret fun p hp => ?_
    cases hp
  refine (Operand.content_secure hstep).bind fun _ _ content hcontent => ?_
  refine (Reads.truthy content).secure.seq fun truth => ?_
  split
  · refine (Secure.subscript _ (.inr hcontent)).bind fun _ hle head hhead => ?_
    refine (Operand.isA_secure _ hhead).seq fun isName => ?_
    split
    · refine (Secure.elements (hcontent.mono hle)).bind fun _ hle' items hitems => ?_
      refine .ret fun p hp => ?_
      cases hp
      exact ⟨hhead.mono hle', hitems.drop 1⟩
    · exact hnone _
  · exact hnone _

omit h in
theorem partsOrRefused_secure {step : Value} (hstep : step.Confined n)
    (parts : Option (Value × List Value)) (hparts : ∀ p, parts = some p → PathConfined n p) :
    Secure n (match parts with
      | some parts => pure parts
      | none => do
        let (kind, line) ← Operand.described step
        Action.raise (.badStep kind line)) PathConfined := by
  split
  · exact .ret (hparts _ rfl)
  · exact (Operand.described_secure hstep).seq fun _ => .raise _

omit h in
theorem stepParts_secure {step : Value} (hstep : step.Confined n) :
    Secure n (stepParts step) PathConfined := by
  refine (Operand.kind_secure hstep).bind fun k hle kind _ => ?_
  dsimp only
  split
  · exact (callParts?_secure (hstep.mono hle)).bind fun l hl parts hparts =>
      partsOrRefused_secure (hstep.mono (Nat.le_trans hle hl)) parts hparts
  · split
    · refine partsOrRefused_secure (hstep.mono hle) (some (step, [])) fun p hp => ?_
      cases hp
      exact ⟨hstep.mono hle, .nil⟩
    · refine partsOrRefused_secure (hstep.mono hle) none fun p hp => ?_
      cases hp

omit h in
theorem notFunction_secure {α : Type} {Q : Nat → α → Prop} {node : Value} (name : Value)
    (hnode : node.Confined n) : Secure n (notFunction node name) Q := by
  refine (Secure.computeAny _).seq fun text => (Operand.frame_secure hnode).seq fun frame => ?_
  exact (Secure.raise _).framed frame

theorem threadThrough_follows {scope v : Value} {steps : List Value} (hscope : scope.Confined n)
    (hv : v.Confined n) (hsteps : AllConfined n steps) :
    Action.Follows n (threadThrough m scope v steps) (threadThrough m' scope v steps)
      Value.Confined := by
  induction steps generalizing n v with
  | nil => exact (Secure.ret hv).follows
  | cons step rest ih =>
    refine (stepParts_secure hsteps.head).follows.bind fun k hk parts hparts => ?_
    refine (Operand.content_secure hparts.1).follows.bind fun l hl name hname => ?_
    have hle := Nat.le_trans hk hl
    refine (Property.get_secure (hv.mono hle) name).follows.bind fun p hp member hmember => ?_
    have hle := Nat.le_trans hle hp
    have hparts := Upward.mono (Q := PathConfined) hparts (Nat.le_trans hl hp)
    dsimp only
    split
    · exact (notFunction_secure name hparts.1).follows
    · split
      · refine (h.invoke (hscope.mono hle) hmember hparts.2).bind fun _ hq result hresult => ?_
        have hle := Nat.le_trans hle hq
        exact ih (hscope.mono hle) hresult (hsteps.tail.mono hle)
      · refine (Machine.elements_follows h (hscope.mono hle) hparts.2).bind
          fun _ hq args hargs => ?_
        refine (h.call (hmember.mono hq) hargs).bind fun _ hr result hresult => ?_
        have hle := Nat.le_trans hle (Nat.le_trans hq hr)
        exact ih (hscope.mono hle) hresult (hsteps.tail.mono hle)

theorem doThrough_follows {scope v : Value} {steps : List Value} (hscope : scope.Confined n)
    (hv : v.Confined n) (hsteps : AllConfined n steps) :
    Action.Follows n (doThrough m scope v steps) (doThrough m' scope v steps)
      Value.Confined := by
  induction steps generalizing n v with
  | nil => exact (Secure.ret hv).follows
  | cons step rest ih =>
    refine (stepParts_secure hsteps.head).follows.bind fun k hk parts hparts => ?_
    refine (Operand.content_secure hparts.1).follows.bind fun l hl name hname => ?_
    have hle := Nat.le_trans hk hl
    refine (Machine.lookup_follows h (hscope.mono hle) hname).bind fun p hp f _ => ?_
    have hle := Nat.le_trans hle hp
    have hparts := Upward.mono (Q := PathConfined) hparts (Nat.le_trans hl hp)
    split
    · exact (notFunction_secure name hparts.1).follows
    · refine (Operand.line_secure (hsteps.head.mono hle)).follows.bind fun q hq line hline => ?_
      have hle := Nat.le_trans hle hq
      have hparts := Upward.mono (Q := PathConfined) hparts hq
      have hops : AllConfined q (.node (.host v line 0) :: parts.2) :=
        .cons (confined_host (hv.mono hle) hline) hparts.2
      refine (h.apply (hscope.mono hle) hparts.1 hops hline).bind
        fun _ hr result hresult => ?_
      have hle := Nat.le_trans hle hr
      exact ih (hscope.mono hle) hresult (hsteps.tail.mono hle)

theorem runThread_follows {scope : Value} {operands : List Value} (hscope : scope.Confined n)
    (hops : AllConfined n operands) :
    Action.Follows n (runThread m scope operands) (runThread m' scope operands)
      Value.Confined := by
  have hinitial := operand_confined hops 0
  unfold runThread
  split
  · exact (Secure.raise _).follows
  · exact (h.eval hscope hinitial).bind fun _ hle _ hv =>
      threadThrough_follows h (hscope.mono hle) hv ((hops.drop 1).mono hle)

theorem runDoto_follows {scope : Value} {operands : List Value} (hscope : scope.Confined n)
    (hops : AllConfined n operands) :
    Action.Follows n (runDoto m scope operands) (runDoto m' scope operands) Value.Confined := by
  have hinitial := operand_confined hops 0
  unfold runDoto
  split
  · exact (Secure.raise _).follows
  · exact (h.eval hscope hinitial).bind fun _ hle _ hv =>
      doThrough_follows h (hscope.mono hle) hv ((hops.drop 1).mono hle)

/-! ## Operators -/

theorem foldOperands_follows {scope acc : Value} {operands : List Value} (op : Operator)
    (hscope : scope.Confined n) (hacc : acc.Confined n) (hops : AllConfined n operands) :
    Action.Follows n (foldOperands m scope op acc operands) (foldOperands m' scope op acc operands)
      Value.Confined := by
  induction operands generalizing n acc with
  | nil => exact (Secure.ret hacc).follows
  | cons operand rest ih =>
    refine (h.eval hscope hops.head).bind fun _ hk v hv => ?_
    refine (Operator.apply_secure op (hacc.mono hk) hv).follows.bind fun _ hl result hresult => ?_
    have hle := Nat.le_trans hk hl
    exact ih (hscope.mono hle) hresult (hops.tail.mono hle)

theorem runOperator_follows {scope : Value} {operands : List Value} (op : Operator)
    (hscope : scope.Confined n) (hops : AllConfined n operands) :
    Action.Follows n (runOperator m scope op operands) (runOperator m' scope op operands)
      Value.Confined := by
  cases operands with
  | nil => exact (Secure.ret trivial).follows
  | cons first rest =>
    exact (h.eval hscope hops.head).bind fun _ hle _ hv =>
      foldOperands_follows h op (hscope.mono hle) hv (hops.tail.mono hle)

theorem runNegate_follows {scope : Value} {operands : List Value} (hscope : scope.Confined n)
    (hops : AllConfined n operands) :
    Action.Follows n (runNegate m scope operands) (runNegate m' scope operands)
      Value.Confined := by
  unfold runNegate
  split
  · exact (Secure.raise _).follows
  · exact (h.eval hscope (operand_confined hops 0)).seq fun v =>
      ((Reads.truthy v).secure.seq fun _ => .ret trivial).follows

/-- Whatever form is run, it follows the machine. -/
theorem run_follows (form : Form) {scope : Value} {operands : List Value}
    (hscope : scope.Confined n) (hops : AllConfined n operands) :
    Action.Follows n (form.run m scope operands) (form.run m' scope operands) Value.Confined := by
  refine (Signature.check_reads _ _).secure.follows.seq fun _ => ?_
  cases form with
  | comment => exact (Secure.ret trivial).follows
  | define => exact runDefine_follows h hscope hops
  | assign => exact runAssign_follows h hscope hops
  | lambda => exact (makeClosure_secure hscope hops).follows
  | defineFunction => exact runDefineFunction_follows h hscope hops
  | adapt => exact runAdapt_follows h hscope hops
  | print => exact runPrint_follows h hscope hops
  | choose => exact runChoose_follows h hscope hops
  | cond => exact runCond_follows h hscope hops
  | object => exact runObject_follows h hscope hops
  | array => exact runArray_follows h hscope hops
  | construct => exact runConstruct_follows h hscope hops
  | getPath => exact runGetPath_follows h hscope hops
  | setPath => exact runSetPath_follows h hscope hops
  | thread => exact runThread_follows h hscope hops
  | doto => exact runDoto_follows h hscope hops
  | operator op => exact runOperator_follows h op hscope hops
  | negate => exact runNegate_follows h hscope hops

end

end Lisplet.Form
