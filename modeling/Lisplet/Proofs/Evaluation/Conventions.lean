import Lisplet.Evaluation.Eval
import Lisplet.Proofs.Evaluation.Operands

/-!
# Calling conventions

A closure or a form that is invoked with values in place of operands does not look at the scope that
it is invoked from, so that all ways to call it agree (`calls_agree`). There are two exceptions.
An adapter keeps the scope that it was made in, and what a form was made to do in place of what it
does by itself gets the scope as its first argument (`calls_disagree`).
-/

namespace Lisplet

open Lisplet.Action

/-! ## Outcomes -/

/-- The outcomes are of one kind, with the same value or error and related stores. -/
def Outcome.Alike {α : Type} (R : Store → Store → Prop) : Outcome α → Outcome α → Prop
  | .done v s, .done w t => v = w ∧ R s t
  | .failed e s, .failed f t => e = f ∧ R s t
  | .exhausted, .exhausted => True
  | _, _ => False

namespace Outcome.Alike

variable {α β : Type} {R : Store → Store → Prop} {o o' : Outcome α}

theorem refl [Std.Refl R] (o : Outcome α) : o.Alike R o := by
  cases o with
  | done v s => exact ⟨rfl, refl_of R s⟩
  | failed e s => exact ⟨rfl, refl_of R s⟩
  | exhausted => trivial

theorem eq (h : o.Alike Eq o') : o = o' := by
  cases o with
  | done v s =>
    cases o' with
    | done w t => rw [h.1, h.2]
    | _ => exact h.elim
  | failed e s =>
    cases o' with
    | failed f t => rw [h.1, h.2]
    | _ => exact h.elim
  | exhausted =>
    cases o' with
    | exhausted => rfl
    | _ => exact h.elim

theorem bind {a b : Action α} {f g : α → Action β} {s t : Store} (h : (a s).Alike R (b t))
    (hfg : ∀ v s' t', a s = .done v s' → b t = .done v t' → R s' t' →
      (f v s').Alike R (g v t')) :
    ((a >>= f) s).Alike R ((b >>= g) t) := by
  rw [bind_apply, bind_apply]
  cases ha : a s with
  | done v s' =>
    cases hb : b t with
    | done w t' =>
      rw [ha, hb] at h
      obtain ⟨rfl, hR⟩ := h
      exact hfg v s' t' ha hb hR
    | failed f t' =>
      rw [ha, hb] at h
      exact h.elim
    | exhausted =>
      rw [ha, hb] at h
      exact h.elim
  | failed e s' =>
    cases hb : b t with
    | failed f t' =>
      rw [ha, hb] at h
      exact h
    | done w t' =>
      rw [ha, hb] at h
      exact h.elim
    | exhausted =>
      rw [ha, hb] at h
      exact h.elim
  | exhausted =>
    cases hb : b t with
    | exhausted => trivial
    | done w t' =>
      rw [ha, hb] at h
      exact h.elim
    | failed f t' =>
      rw [ha, hb] at h
      exact h.elim

end Outcome.Alike

/-! ## Stores -/

/-- What the function does, without the scope that an adapter keeps. -/
def FunctionCode.bare : FunctionCode → FunctionCode
  | .adapter target _ => .adapter target .nil
  | code => code

/-- The function without the scope that an adapter keeps. -/
def FunctionCell.bare (cell : FunctionCell) : FunctionCell := { cell with code := cell.code.bare }

/-- The store without the scopes that adapters keep. -/
def Store.bare (s : Store) : Store := { s with functions := s.functions.map FunctionCell.bare }

/-- The stores differ at most in the scopes that adapters keep. -/
def Store.SameButAdapters (s t : Store) : Prop := s.bare = t.bare

instance : Std.Refl Store.SameButAdapters := ⟨fun _ => rfl⟩

/-! ## Operands that are values -/

/-- All operands are nodes that stand for values. -/
def Wrapped (operands : List Value) : Prop := ∀ operand ∈ operands, ∃ v, operand = Machine.wrap v

/-- The machine evaluates nodes that stand for values to these values, and a missing operand to the
same in all scopes, if it has any steps left. -/
structure Machine.Unwraps (m : Machine) : Prop where
  value : (∀ scope v, m.eval scope (Machine.wrap v) = pure v) ∨
    ∀ scope v, m.eval scope (Machine.wrap v) = .exhausted
  nil : ∀ scope scope', m.eval scope .nil = m.eval scope' .nil

theorem Machine.Unwraps.wrap {m : Machine} (h : m.Unwraps) (scope scope' v : Value) :
    m.eval scope (Machine.wrap v) = m.eval scope' (Machine.wrap v) := by
  rcases h.value with hpure | hnone
  · rw [hpure, hpure]
  · rw [hnone, hnone]

theorem machine_unwraps (fuel : Nat) : (machine fuel).Unwraps := by
  cases fuel with
  | zero => exact ⟨.inr fun _ _ => rfl, fun _ _ => rfl⟩
  | succ fuel => exact ⟨.inl fun _ _ => rfl, fun _ _ => rfl⟩

namespace Wrapped

variable {operands : List Value}

theorem map_wrap (vs : List Value) : Wrapped (vs.map Machine.wrap) := by
  intro operand hmem
  obtain ⟨v, _, rfl⟩ := List.mem_map.mp hmem
  exact ⟨v, rfl⟩

theorem drop (h : Wrapped operands) (n : Nat) : Wrapped (operands.drop n) :=
  fun operand hmem => h operand (List.mem_of_mem_drop hmem)

theorem dropLast (h : Wrapped operands) : Wrapped operands.dropLast :=
  fun operand hmem => h operand (List.dropLast_subset _ hmem)

theorem head {operand : Value} (h : Wrapped (operand :: operands)) :
    ∃ v, operand = Machine.wrap v :=
  h operand List.mem_cons_self

theorem tail {operand : Value} (h : Wrapped (operand :: operands)) : Wrapped operands :=
  fun other hmem => h other (List.mem_cons_of_mem _ hmem)

theorem operand (h : Wrapped operands) (i : Nat) :
    Form.operand operands i = .nil ∨ ∃ v, Form.operand operands i = Machine.wrap v := by
  unfold Form.operand
  rw [List.getD_eq_getElem?_getD]
  cases hget : operands[i]? with
  | none => exact .inl rfl
  | some operand => exact .inr (h operand (List.mem_of_getElem? hget))

end Wrapped

namespace Machine

variable {m : Machine} (h : m.Unwraps) {operands : List Value} (hops : Wrapped operands)
  (scope scope' : Value)

include h hops

theorem eval_operand (i : Nat) :
    m.eval scope (Form.operand operands i) = m.eval scope' (Form.operand operands i) := by
  rcases hops.operand i with hnil | ⟨v, hv⟩
  · rw [hnil]
    exact h.nil scope scope'
  · rw [hv]
    exact h.wrap scope scope' v

theorem evalAll_wrapped : m.evalAll scope operands = m.evalAll scope' operands := by
  induction operands with
  | nil => rfl
  | cons operand rest ih =>
    obtain ⟨v, rfl⟩ := hops.head
    unfold evalAll
    rw [h.wrap scope scope' v, ih hops.tail]

theorem elements_wrapped : m.elements scope operands = m.elements scope' operands := by
  induction operands with
  | nil => rfl
  | cons operand rest ih =>
    obtain ⟨v, rfl⟩ := hops.head
    have hitem : m.itemElements scope (wrap v) = m.itemElements scope' (wrap v) := by
      show (m.eval scope (wrap v) >>= fun w => pure [w]) = _
      rw [h.wrap scope scope' v]
      rfl
    unfold elements
    rw [hitem, ih hops.tail]

omit h in
/-- Nodes that stand for values are neither keys nor spreads, and are passed over. -/
theorem entries_wrapped : m.entries scope operands = pure .empty := by
  unfold entries
  induction operands with
  | nil => rfl
  | cons operand rest ih =>
    obtain ⟨v, rfl⟩ := hops.head
    unfold entriesInto
    exact ih hops.tail

end Machine

/-! ## Forms -/

/-- A node that stands for a value is no target of an assignment, whatever the scope is. -/
theorem Pattern.bindTarget_wrap (m : Machine) (scope scope' v w : Value) :
    bindTarget m scope (Machine.wrap v) w = bindTarget m scope' (Machine.wrap v) w := by
  have hkind : Operand.kind (Machine.wrap v) = pure (.kind .host) := rfl
  have hname : isName (.kind .host) = false := by decide
  have harray : (Value.kind .host).isKind (.group .array) = false := by decide
  have hobject : (Value.kind .host).isKind (.group .object) = false := by decide
  unfold bindTarget
  rw [hkind, pure_bind, pure_bind, hname, harray, hobject]
  simp only [Bool.false_eq_true, if_false]

namespace Form

variable {m : Machine} {operands : List Value}

/-- A node that stands for a value is of no other kind. -/
theorem isA_wrap (v : Value) {k : NodeKind} (hk : k ≠ .host) :
    Operand.isA k (Machine.wrap v) = pure false := by
  have hkind : (NodeKind.host == k) = false := beq_false_of_ne hk.symm
  show Operand.isA k (.node _) = _
  rw [Operand.isA_node]
  exact congrArg _ hkind

/-- A node that stands for a value is no step of a chain. -/
theorem stepParts_wrap {α : Type} (v : Value) (f : Value × List Value → Action α) :
    stepParts (Machine.wrap v) >>= f =
      Operand.described (Machine.wrap v) >>= fun d => .raise (.badStep d.1 d.2) := by
  have hstep : stepParts (Machine.wrap v) =
      Operand.described (Machine.wrap v) >>= fun d => .raise (.badStep d.1 d.2) := by
    unfold stepParts
    rw [show Operand.kind (Machine.wrap v) = pure (.kind .host) from rfl, pure_bind,
      if_neg (by decide), if_neg (by decide), pure_bind]
  rw [hstep, bind_assoc]
  exact bind_congr fun d => rfl

section

variable (h : m.Unwraps) (hops : Wrapped operands) (scope scope' : Value)

include hops

theorem keysToStrings_wrapped : keysToStrings operands = pure operands := by
  induction operands with
  | nil => rfl
  | cons operand rest ih =>
    obtain ⟨v, rfl⟩ := hops.head
    unfold keysToStrings
    rw [ih hops.tail]
    rfl

theorem makeClosure_wrapped : makeClosure scope operands = makeClosure scope' operands := by
  unfold makeClosure
  rcases hops.operand 0 with hnil | ⟨v, hv⟩
  · rw [hnil]
  · rw [hv]
    show (Operand.isA _ (Machine.wrap v) >>= _) = (Operand.isA _ (Machine.wrap v) >>= _)
    rw [isA_wrap v (by decide)]
    rfl

theorem runDefineFunction_wrapped :
    runDefineFunction m scope operands = runDefineFunction m scope' operands := by
  unfold runDefineFunction
  rcases hops.operand 0 with hnil | ⟨v, hv⟩
  · rw [hnil]
  · rw [hv]
    show (Operand.isA _ (Machine.wrap v) >>= _) = (Operand.isA _ (Machine.wrap v) >>= _)
    rw [isA_wrap v (by decide)]
    rfl

include h

theorem runAssign_wrapped : runAssign m scope operands = runAssign m scope' operands := by
  unfold runAssign
  rw [Machine.eval_operand h hops scope scope']
  rcases hops.operand 0 with hnil | ⟨v, hv⟩
  · rw [hnil]
  · rw [hv]
    exact congrArg (m.eval scope' (operand operands 1) >>= ·)
      (funext fun w => Pattern.bindTarget_wrap m scope scope' v w)

theorem runDefine_wrapped : runDefine m scope operands = runDefine m scope' operands := by
  unfold runDefine
  rw [runAssign_wrapped h hops scope scope']
  rcases hops.operand 0 with hnil | ⟨v, hv⟩
  · rw [hnil]
  · rw [hv]
    rfl

theorem evalPath_wrapped : evalPath m scope operands = evalPath m scope' operands := by
  unfold evalPath
  rw [keysToStrings_wrapped hops, pure_bind, pure_bind, Machine.evalAll_wrapped h hops scope scope']

theorem runSetPath_wrapped : runSetPath m scope operands = runSetPath m scope' operands := by
  rcases operands with _ | ⟨target, _ | ⟨first, _ | ⟨second, others⟩⟩⟩
  · rfl
  · obtain ⟨v, rfl⟩ := hops.head
    rfl
  · obtain ⟨v, rfl⟩ := hops.head
    rfl
  · obtain ⟨v, rfl⟩ := hops.head
    have hrest := hops.tail
    have hlast : (first :: second :: others).getLastD .nil ∈ first :: second :: others := by
      rw [List.getLastD_cons]
      exact List.getLastD_mem_cons
    obtain ⟨w, hw⟩ := hrest _ hlast
    show (m.eval scope (Machine.wrap v) >>= fun v => m.eval scope _ >>= fun value =>
      evalPath m scope _ >>= fun path => Property.setPath v path value >>= fun _ => pure v) = _
    rw [hw, h.wrap scope scope' v, h.wrap scope scope' w,
      evalPath_wrapped h hrest.dropLast scope scope', ← hw]
    rfl

omit h in
theorem threadThrough_wrapped (v : Value) :
    threadThrough m scope v operands = threadThrough m scope' v operands := by
  cases operands with
  | nil => rfl
  | cons operand rest =>
    obtain ⟨w, rfl⟩ := hops.head
    unfold threadThrough
    rw [stepParts_wrap, stepParts_wrap]

omit h in
theorem doThrough_wrapped (v : Value) :
    doThrough m scope v operands = doThrough m scope' v operands := by
  cases operands with
  | nil => rfl
  | cons operand rest =>
    obtain ⟨w, rfl⟩ := hops.head
    unfold doThrough
    rw [stepParts_wrap, stepParts_wrap]

theorem foldOperands_wrapped (op : Operator) (acc : Value) :
    foldOperands m scope op acc operands = foldOperands m scope' op acc operands := by
  induction operands generalizing acc with
  | nil => rfl
  | cons operand rest ih =>
    obtain ⟨v, rfl⟩ := hops.head
    unfold foldOperands
    rw [h.wrap scope scope' v]
    exact bind_congr fun w => bind_congr fun result => ih hops.tail result

/-- A form that evaluates its first operand and goes on with the value. -/
theorem firstOperand_wrapped {f g : Value → Value → Action Value} (missing : Fault)
    (hfg : ∀ target v, f target v = g target v) :
    (match operand operands 0 with
      | .nil => Action.raise missing
      | target => m.eval scope target >>= f target) =
    (match operand operands 0 with
      | .nil => Action.raise missing
      | target => m.eval scope' target >>= g target) := by
  obtain rfl : f = g := funext fun target => funext (hfg target)
  rcases hops.operand 0 with hnil | ⟨v, hv⟩
  · rw [hnil]
  · rw [hv]
    show (m.eval scope (Machine.wrap v) >>= _) = (m.eval scope' (Machine.wrap v) >>= _)
    rw [h.wrap scope scope' v]

theorem runChoose_wrapped : runChoose m scope operands = runChoose m scope' operands := by
  refine firstOperand_wrapped h hops scope scope' _ fun _ v => ?_
  rw [Machine.eval_operand h hops scope scope' 1, Machine.eval_operand h hops scope scope' 2]

theorem runConstruct_wrapped : runConstruct m scope operands = runConstruct m scope' operands := by
  refine firstOperand_wrapped h hops scope scope' _ fun _ v => ?_
  rw [Machine.elements_wrapped h (hops.drop 1) scope scope']

theorem runGetPath_wrapped : runGetPath m scope operands = runGetPath m scope' operands := by
  refine firstOperand_wrapped h hops scope scope' _ fun _ v => ?_
  rw [evalPath_wrapped h (hops.drop 1) scope scope']

theorem runThread_wrapped : runThread m scope operands = runThread m scope' operands :=
  firstOperand_wrapped h hops scope scope' _ fun _ v =>
    threadThrough_wrapped (hops.drop 1) scope scope' v

theorem runDoto_wrapped : runDoto m scope operands = runDoto m scope' operands :=
  firstOperand_wrapped h hops scope scope' _ fun _ v =>
    doThrough_wrapped (hops.drop 1) scope scope' v

theorem runOperator_wrapped (op : Operator) :
    runOperator m scope op operands = runOperator m scope' op operands := by
  cases operands with
  | nil => rfl
  | cons operand rest =>
    obtain ⟨v, rfl⟩ := hops.head
    show (m.eval scope (Machine.wrap v) >>= _) = (m.eval scope' (Machine.wrap v) >>= _)
    rw [h.wrap scope scope' v]
    exact bind_congr fun w => foldOperands_wrapped h hops.tail scope scope' op w

/-- Of the forms only the one that makes adapters and the one that maps an array look at the
scope. -/
theorem run_wrapped {form : Form} (hadapt : form ≠ .adapt) (harray : form ≠ .array) :
    form.run m scope operands = form.run m scope' operands := by
  refine bind_congr fun _ => ?_
  cases form with
  | comment => rfl
  | define => exact runDefine_wrapped h hops scope scope'
  | assign => exact runAssign_wrapped h hops scope scope'
  | lambda => exact makeClosure_wrapped hops scope scope'
  | defineFunction => exact runDefineFunction_wrapped hops scope scope'
  | adapt => exact absurd rfl hadapt
  | print =>
    show runPrint m scope operands = runPrint m scope' operands
    unfold runPrint
    rw [Machine.evalAll_wrapped h hops scope scope']
  | choose => exact runChoose_wrapped h hops scope scope'
  | cond =>
    show runCond m scope operands = runCond m scope' operands
    unfold runCond
    rw [Machine.elements_wrapped h hops scope scope']
  | object =>
    show runObject m scope operands = runObject m scope' operands
    unfold runObject
    rw [Machine.entries_wrapped hops, Machine.entries_wrapped hops]
  | array => exact absurd rfl harray
  | construct => exact runConstruct_wrapped h hops scope scope'
  | getPath => exact runGetPath_wrapped h hops scope scope'
  | setPath => exact runSetPath_wrapped h hops scope scope'
  | thread => exact runThread_wrapped h hops scope scope'
  | doto => exact runDoto_wrapped h hops scope scope'
  | operator op => exact runOperator_wrapped h hops scope scope' op
  | negate =>
    show runNegate m scope operands = runNegate m scope' operands
    unfold runNegate
    rw [Machine.eval_operand h hops scope scope' 0]

end

/-! ## Adapters -/

theorem languageFunction?_wrap (m : Machine) (scope v : Value) (rest : List Value) :
    languageFunction? m scope (Machine.wrap v :: rest) = m.eval scope (Machine.wrap v) >>= fun fn =>
      if fn.isLanguageFunction then pure (some fn)
      else .raise (.notAdaptable fn.shortTypeName) := by
  show (Operand.isA _ (Machine.wrap v) >>= _) = _
  rw [isA_wrap v (by decide), pure_bind]
  rfl

theorem bare_push (s : Store) (cell : FunctionCell) :
    Store.bare { s with functions := s.functions.push cell } =
      { s.bare with functions := s.bare.functions.push cell.bare } := by
  unfold Store.bare
  rw [Array.map_push]

theorem newAdapter_alike (fn scope scope' : Value) {s t : Store} (h : s.SameButAdapters t) :
    (newFunction (.adapter fn scope) s).Alike Store.SameButAdapters
      (newFunction (.adapter fn scope') t) := by
  have hfunctions : s.functions.map FunctionCell.bare = t.functions.map FunctionCell.bare :=
    congrArg Store.functions h
  have hsize : s.functions.size = t.functions.size := by
    rw [← Array.size_map (f := FunctionCell.bare), hfunctions, Array.size_map]
  refine ⟨?_, (bare_push s _).trans (Eq.trans ?_ (bare_push t _).symm)⟩
  · show Value.function ⟨.plain, s.functions.size⟩ = Value.function ⟨.plain, t.functions.size⟩
    rw [hsize]
  · rw [show s.bare = t.bare from h]
    rfl

theorem runAdapt_alike (h : m.Unwraps) (hops : Wrapped operands) (scope scope' : Value)
    {s t : Store} (hst : s.SameButAdapters t) :
    (runAdapt m scope operands s).Alike Store.SameButAdapters
      (runAdapt m scope' operands t) := by
  cases operands with
  | nil => exact ⟨rfl, hst⟩
  | cons operand rest =>
    obtain ⟨v, rfl⟩ := hops.head
    unfold runAdapt
    rw [languageFunction?_wrap, languageFunction?_wrap]
    rcases h.value with hpure | hnone
    · rw [hpure, hpure, pure_bind]
      split
      · exact newAdapter_alike v scope scope' hst
      · exact ⟨rfl, hst⟩
    · rw [hnone, hnone]
      trivial

/-! ## Arrays that are mapped -/

/-- Where an array is made from a value and a number, the number is no function. -/
theorem run_array_pair (h : m.Unwraps) (scope scope' v : Value) (i : Int) :
    Form.array.run m scope [Machine.wrap v, Machine.wrap (.int i)] =
      Form.array.run m scope' [Machine.wrap v, Machine.wrap (.int i)] := by
  refine bind_congr fun _ => ?_
  show (languageFunction? m scope [Machine.wrap (.int i)] >>= _) =
    (languageFunction? m scope' [Machine.wrap (.int i)] >>= _)
  rw [languageFunction?_wrap, languageFunction?_wrap]
  rcases h.value with hpure | hnone
  · rw [hpure, hpure, pure_bind]
    rfl
  · rw [hnone, hnone]
    rfl

/-- Mapping goes the same way from two scopes if each invocation does. -/
theorem mapIndexed_alike {R : Store → Store → Prop} {scope scope' fn : Value} {Own : Store → Prop}
    (hstep : ∀ v i s t, R s t → Own s →
      (m.invoke scope fn [Machine.wrap v, Machine.wrap (.int i)] s).Alike R
        (m.invoke scope' fn [Machine.wrap v, Machine.wrap (.int i)] t))
    {items : List Value} (i : Nat) {s t : Store} (hR : R s t)
    (hown : ∀ k < items.length, ∀ results u,
      mapIndexed m scope fn i (items.take k) s = .done results u → Own u) :
    (mapIndexed m scope fn i items s).Alike R (mapIndexed m scope' fn i items t) := by
  induction items generalizing i s t with
  | nil => exact ⟨rfl, hR⟩
  | cons v rest ih =>
    have hfirst : Own s := hown 0 (Nat.zero_lt_succ _) [] s rfl
    refine Outcome.Alike.bind (hstep v i s t hR hfirst) fun result s' t' hdone _ hR' => ?_
    refine Outcome.Alike.bind (ih (i + 1) hR' fun k hk results u hmap => ?_)
      fun results s'' t'' _ _ hR'' => ⟨rfl, hR''⟩
    refine hown (k + 1) (Nat.succ_lt_succ hk) (result :: results) u ?_
    rw [List.take_succ_cons]
    exact (Action.bind_of_done hdone).trans (Action.bind_of_done hmap)

end Form

/-! ## Invocations -/

/-- What the function does has not been replaced, if it is a form. -/
def Store.Own (s : Store) (f : Value) : Prop :=
  ∀ form, f = .form form → s.formBodies.lookup form = none

theorem Store.SameButAdapters.own {s t : Store} (h : s.SameButAdapters t) {f : Value}
    (hown : s.Own f) : t.Own f := by
  have hbare : s.bare = t.bare := h
  have hbodies := congrArg Store.formBodies hbare
  exact fun form hf => (congrArg (List.lookup form) hbodies).symm.trans (hown form hf)

namespace Machine

variable {m : Machine} {operands : List Value} {s t : Store}

theorem invokeForm_own {form : Form} (hown : s.formBodies.lookup form = none) (scope : Value) :
    m.invokeForm scope form operands s = form.run m scope operands s := by
  have hread : gets (·.formBodies.lookup form) s = .done none s := congrArg (Outcome.done · s) hown
  exact Action.bind_of_done hread

variable (h : m.Unwraps) (hops : Wrapped operands) (scope scope' : Value)

include h hops

theorem invokeClosure_wrapped (r : ClosureRef) :
    m.invokeClosure scope r operands = m.invokeClosure scope' r operands := by
  unfold invokeClosure
  rw [elements_wrapped h hops scope scope']

/-- An invocation goes the same way from two scopes if the run of a form does. -/
theorem invokeStep_wrapped {f : Value} (hown : s.Own f)
    (hrun : ∀ form, f = .form form → form.run m scope operands s = form.run m scope' operands s) :
    m.invokeStep scope f operands s = m.invokeStep scope' f operands s := by
  cases f with
  | closure r => exact congrFun (invokeClosure_wrapped h hops scope scope' r) s
  | form form =>
    show m.invokeForm scope form operands s = m.invokeForm scope' form operands s
    rw [invokeForm_own (hown form rfl), invokeForm_own (hown form rfl)]
    exact hrun form rfl
  | _ => rfl

theorem invokeStep_adapt (hst : s.SameButAdapters t) (hown : s.Own (.form .adapt)) :
    (m.invokeStep scope (.form .adapt) operands s).Alike Store.SameButAdapters
      (m.invokeStep scope' (.form .adapt) operands t) := by
  show (m.invokeForm scope .adapt operands s).Alike _ (m.invokeForm scope' .adapt operands t)
  rw [invokeForm_own (hown _ rfl), invokeForm_own (hst.own hown _ rfl)]
  rcases Form.adapt.signature.check_eq (operands.length + 1) with hcheck | ⟨fault, hcheck⟩
  · show ((_ >>= fun _ => Form.runAdapt m scope operands) s).Alike _
      ((_ >>= fun _ => Form.runAdapt m scope' operands) t)
    rw [hcheck, pure_bind, pure_bind]
    exact Form.runAdapt_alike h hops scope scope' hst
  · show ((_ >>= fun _ => Form.runAdapt m scope operands) s).Alike _
      ((_ >>= fun _ => Form.runAdapt m scope' operands) t)
    rw [hcheck]
    exact ⟨rfl, hst⟩

end Machine

/-- The invocation for an element and its position goes the same way from two scopes. -/
theorem invoke_pair_wrapped (fuel : Nat) (scope scope' : Value) {fn : Value} {s : Store}
    (hfn : fn ≠ .form .adapt) (hown : s.Own fn) (v : Value) (i : Int) :
    invoke fuel scope fn [Machine.wrap v, Machine.wrap (.int i)] s =
      invoke fuel scope' fn [Machine.wrap v, Machine.wrap (.int i)] s := by
  cases fuel with
  | zero => rfl
  | succ fuel =>
    have hops := Wrapped.map_wrap [v, .int i]
    refine Machine.invokeStep_wrapped (machine_unwraps fuel) hops scope scope' hown ?_
    rintro form rfl
    by_cases harray : form = .array
    · subst harray
      exact congrFun (Form.run_array_pair (machine_unwraps fuel) scope scope' v i) s
    · have hadapt : form ≠ .adapt := fun h => hfn (congrArg _ h)
      exact congrFun (Form.run_wrapped (machine_unwraps fuel) hops scope scope' hadapt harray) s

/-- Mapping elements goes the same way from two scopes, apart from the scopes that adapters keep. -/
theorem mapIndexed_wrapped (fuel : Nat) (scope scope' fn : Value) {items : List Value} {s : Store}
    (hown : ∀ k < items.length, ∀ results u,
      Form.mapIndexed (machine fuel) scope fn 0 (items.take k) s = .done results u → u.Own fn) :
    (Form.mapIndexed (machine fuel) scope fn 0 items s).Alike Store.SameButAdapters
      (Form.mapIndexed (machine fuel) scope' fn 0 items s) := by
  by_cases hfn : fn = .form .adapt
  · subst hfn
    refine Form.mapIndexed_alike (fun v i s t hst hs => ?_) 0 (refl_of _ s) hown
    cases fuel with
    | zero => trivial
    | succ fuel =>
      exact Machine.invokeStep_adapt (machine_unwraps fuel) (.map_wrap [v, .int i]) scope scope'
        hst hs
  · have hstep : ∀ v i s t, s = t → s.Own fn →
        ((machine fuel).invoke scope fn [Machine.wrap v, Machine.wrap (.int i)] s).Alike Eq
          ((machine fuel).invoke scope' fn [Machine.wrap v, Machine.wrap (.int i)] t) := by
      rintro v i s t rfl hs
      rw [show (machine fuel).invoke = invoke fuel from rfl,
        invoke_pair_wrapped fuel scope scope' hfn hs v i]
      exact .refl _
    rw [(Form.mapIndexed_alike hstep 0 rfl hown).eq]
    exact .refl _

namespace Form

/-- An array from a value without a function to map it. -/
theorem runArray_unmapped (m : Machine) (h : m.Unwraps) (scope scope' : Value)
    {operands : List Value} (hops : Wrapped operands) (hshort : operand operands 1 = .nil) :
    runArray m scope operands = runArray m scope' operands := by
  unfold runArray
  rw [hshort, Machine.eval_operand h hops scope scope' 0]
  rfl

end Form

/-- Whenever a form is invoked it does what it does by itself: the function that is invoked, and the
one that an array is mapped by, for each of the elements. -/
def RunsAsMade (m : Machine) (scope f : Value) (vs : List Value) (s : Store) : Prop :=
  s.Own f ∧ ∀ v fn rest items t, f = .form .array → vs = v :: fn :: rest →
    Form.arrayElements v s = .done items t → ∀ k < items.length, ∀ results u,
      Form.mapIndexed m scope fn 0 (items.take k) t = .done results u → u.Own fn

theorem newList_alike {s t : Store} (h : s.SameButAdapters t) (items : Array Value) :
    (newList items s).Alike Store.SameButAdapters (newList items t) := by
  have hbare : s.bare = t.bare := h
  have hlists := congrArg Store.lists hbare
  have hsize : s.lists.size = t.lists.size := congrArg Array.size hlists
  refine ⟨?_, ?_⟩
  · show Value.list ⟨s.lists.size⟩ = Value.list ⟨t.lists.size⟩
    rw [hsize]
  · exact congrArg (fun u : Store => { u with lists := u.lists.push items }) hbare

theorem runArray_wrapped (fuel : Nat) (scope scope' : Value) {vs : List Value} {s : Store}
    (hown : RunsAsMade (machine fuel) scope (.form .array) vs s) :
    (Form.runArray (machine fuel) scope (vs.map Machine.wrap) s).Alike Store.SameButAdapters
      (Form.runArray (machine fuel) scope' (vs.map Machine.wrap) s) := by
  have hm := machine_unwraps fuel
  rcases vs with _ | ⟨v, _ | ⟨fn, rest⟩⟩
  · rw [Form.runArray_unmapped _ hm scope scope' (.map_wrap []) rfl]
    exact .refl _
  · rw [Form.runArray_unmapped _ hm scope scope' (.map_wrap [v]) rfl]
    exact .refl _
  · show ((Form.languageFunction? _ scope [Machine.wrap fn] >>= _) s).Alike _
      ((Form.languageFunction? _ scope' [Machine.wrap fn] >>= _) s)
    rw [Form.languageFunction?_wrap, Form.languageFunction?_wrap]
    rcases hm.value with hpure | hnone
    · rw [hpure, hpure, pure_bind]
      split
      · show ((((machine fuel).eval scope (Machine.wrap v)) >>= _) s).Alike _
          ((((machine fuel).eval scope' (Machine.wrap v)) >>= _) s)
        rw [hpure, hpure, pure_bind, pure_bind]
        refine Outcome.Alike.bind (.refl (Form.arrayElements v s))
          fun items t t' hdone hdone' _ => ?_
        obtain rfl : t = t' := by
          rw [hdone] at hdone'
          cases hdone'
          rfl
        refine Outcome.Alike.bind (mapIndexed_wrapped fuel scope scope' fn ?_)
          fun results u u' _ _ hu => newList_alike hu _
        exact hown.2 v fn rest items t rfl rfl hdone
      · exact .refl _
    · rw [hnone, hnone]
      exact .refl _

theorem run_array_wrapped (fuel : Nat) (scope scope' : Value) {vs : List Value} {s : Store}
    (hown : RunsAsMade (machine fuel) scope (.form .array) vs s) :
    (Form.array.run (machine fuel) scope (vs.map Machine.wrap) s).Alike Store.SameButAdapters
      (Form.array.run (machine fuel) scope' (vs.map Machine.wrap) s) := by
  rcases Form.array.signature.check_eq ((vs.map Machine.wrap).length + 1) with
    hcheck | ⟨fault, hcheck⟩
  · show ((_ >>= fun _ => Form.runArray (machine fuel) scope (vs.map Machine.wrap)) s).Alike _
      ((_ >>= fun _ => Form.runArray (machine fuel) scope' (vs.map Machine.wrap)) s)
    rw [hcheck, pure_bind, pure_bind]
    exact runArray_wrapped fuel scope scope' hown
  · show ((_ >>= fun _ => Form.runArray (machine fuel) scope (vs.map Machine.wrap)) s).Alike _
      ((_ >>= fun _ => Form.runArray (machine fuel) scope' (vs.map Machine.wrap)) s)
    rw [hcheck]
    exact .refl _

/-! ## Invocations with values -/

/-- A closure or a form that is invoked with values goes the same way from any two scopes. -/
theorem invoke_wrapped (fuel : Nat) (scope scope' : Value) {f : Value} {vs : List Value} {s : Store}
    (hown : RunsAsMade (machine fuel) scope f vs s) :
    (invoke (fuel + 1) scope f (vs.map Machine.wrap) s).Alike Store.SameButAdapters
      (invoke (fuel + 1) scope' f (vs.map Machine.wrap) s) := by
  have hops := Wrapped.map_wrap vs
  have hm := machine_unwraps fuel
  by_cases hadapt : f = .form .adapt
  · subst hadapt
    exact Machine.invokeStep_adapt hm hops scope scope' (refl_of _ s) hown.1
  · by_cases harray : f = .form .array
    · subst harray
      show ((machine fuel).invokeForm scope .array (vs.map Machine.wrap) s).Alike _
        ((machine fuel).invokeForm scope' .array (vs.map Machine.wrap) s)
      rw [Machine.invokeForm_own (hown.1 _ rfl), Machine.invokeForm_own (hown.1 _ rfl)]
      exact run_array_wrapped fuel scope scope' hown
    · have heq : invoke (fuel + 1) scope f (vs.map Machine.wrap) s =
          invoke (fuel + 1) scope' f (vs.map Machine.wrap) s := by
        refine Machine.invokeStep_wrapped hm hops scope scope' hown.1 fun form hf => ?_
        have hadapt' : form ≠ .adapt := fun h => hadapt (h ▸ hf)
        have harray' : form ≠ .array := fun h => harray (h ▸ hf)
        exact congrFun (Form.run_wrapped hm hops scope scope' hadapt' harray') s
      rw [heq]
      exact .refl _

/-! ## Ways to call a function -/

theorem Machine.elements_wrap (fuel : Nat) (scope : Value) (vs : List Value) :
    (machine (fuel + 1)).elements scope (vs.map Machine.wrap) = pure vs := by
  induction vs with
  | nil => rfl
  | cons v rest ih =>
    show ((machine (fuel + 1)).itemElements scope (Machine.wrap v) >>= fun here =>
      (machine (fuel + 1)).elements scope (rest.map Machine.wrap) >>= fun others =>
        pure (here ++ others)) = _
    rw [ih]
    rfl

section

variable (fuel : Nat) {vs : List Value} {s : Store}

/-- A closure that is called with values is invoked, no matter from which scope. -/
theorem call_closure {r : ClosureRef} {c : Closure} (hc : s.closure? r = some c) (scope : Value) :
    call (fuel + 2) (.closure r) vs s =
      invoke (fuel + 1) scope (.closure r) (vs.map Machine.wrap) s := by
  have hcall : call (fuel + 2) (.closure r) vs s =
      invoke (fuel + 1) c.scope (.closure r) (vs.map Machine.wrap) s :=
    Action.bind_of_done (Property.member_closure hc).2.2
  rw [hcall]
  exact congrFun (Machine.invokeClosure_wrapped (machine_unwraps fuel) (.map_wrap vs) _ _ r) s

/-- An adapter that is called with values invokes its target from the scope that it keeps. -/
theorem call_adapter {a : FunctionRef} {f scope : Value} {attributes : Attributes}
    (ha : s.function? a = some ⟨.adapter f scope, attributes⟩) :
    call (fuel + 2) (.function a) vs s = invoke (fuel + 1) scope f (vs.map Machine.wrap) s := by
  have hread : Action.gets (·.function? a) s = .done (some ⟨.adapter f scope, attributes⟩) s :=
    congrArg (Outcome.done · s) ha
  exact Action.bind_of_done hread

/-- A closure that is applied to operands in a script is called with their values. -/
theorem apply_closure {scope head line : Value} {operands : List Value} {r : ClosureRef}
    {t u : Store} (hhead : (machine (fuel + 2)).headValue scope head s = .done (.closure r) t)
    (hoperands : (machine (fuel + 1)).elements scope operands t = .done vs u) (scope' : Value) :
    apply (fuel + 3) scope head operands line s =
      Action.framed ⟨firstIdent (head :: operands), line⟩
        (invoke (fuel + 2) scope' (.closure r) (vs.map Machine.wrap)) u := by
  have hinvoke : invoke (fuel + 2) scope (.closure r) operands t =
      invoke (fuel + 2) scope' (.closure r) (vs.map Machine.wrap) u := by
    have hwrapped : (machine (fuel + 1)).elements scope' (vs.map Machine.wrap) u = .done vs u :=
      congrFun (Machine.elements_wrap fuel scope' vs) u
    show (machine (fuel + 1)).invokeClosure scope r operands t =
      (machine (fuel + 1)).invokeClosure scope' r (vs.map Machine.wrap) u
    unfold Machine.invokeClosure
    rw [Action.bind_of_done hoperands, Action.bind_of_done hwrapped]
  have happly : (machine (fuel + 2)).application scope head operands s =
      invoke (fuel + 2) scope' (.closure r) (vs.map Machine.wrap) u :=
    (Action.bind_of_done hhead).trans hinvoke
  show Action.framed _ ((machine (fuel + 2)).application scope head operands) s = _
  unfold Action.framed
  rw [happly]

end

/-- Calling a closure or a form with values goes the same way from all scopes, and all ways to call
it agree: the call by the host, by an adapter, and for a closure also by a script. The host calls a
form from a new scope, which is there for the invocation that the call is compared with. -/
theorem calls_agree (fuel : Nat) (vs : List Value) (s : Store) :
    (∀ f scope scope', RunsAsMade (machine fuel) scope f vs s →
      (invoke (fuel + 1) scope f (vs.map Machine.wrap) s).Alike Store.SameButAdapters
        (invoke (fuel + 1) scope' f (vs.map Machine.wrap) s)) ∧
    (∀ form inner t scope, s.addScope [] .nil = (inner, t) →
      RunsAsMade (machine fuel) (.scope inner) (.form form) vs t →
        (call (fuel + 2) (.form form) vs s).Alike Store.SameButAdapters
          (invoke (fuel + 1) scope (.form form) (vs.map Machine.wrap) t)) ∧
    (∀ a f scope attributes, s.function? a = some ⟨.adapter f scope, attributes⟩ →
      call (fuel + 2) (.function a) vs s = invoke (fuel + 1) scope f (vs.map Machine.wrap) s) ∧
    (∀ r c scope, s.closure? r = some c →
      call (fuel + 2) (.closure r) vs s =
        invoke (fuel + 1) scope (.closure r) (vs.map Machine.wrap) s) ∧
    (∀ r scope scope' head operands line t u,
      (machine (fuel + 2)).headValue scope head s = .done (.closure r) t →
      (machine (fuel + 1)).elements scope operands t = .done vs u →
        apply (fuel + 3) scope head operands line s =
          Action.framed ⟨firstIdent (head :: operands), line⟩
            (invoke (fuel + 2) scope' (.closure r) (vs.map Machine.wrap)) u) := by
  refine ⟨fun f scope scope' => invoke_wrapped fuel scope scope', ?_,
    fun a f scope attributes => call_adapter fuel, fun r c scope hc => call_closure fuel hc scope,
    fun r scope scope' head operands line t u hhead hoperands =>
      apply_closure fuel hhead hoperands scope'⟩
  intro form inner t scope hadd hown
  have hcall : call (fuel + 2) (.form form) vs s =
      invoke (fuel + 1) (.scope inner) (.form form) (vs.map Machine.wrap) t := by
    have hmake : Action.make (·.addScope [] .nil) s = .done inner t :=
      congrArg (fun added : ScopeRef × Store => Outcome.done added.1 added.2) hadd
    exact Action.bind_of_done hmake
  rw [hcall]
  exact invoke_wrapped fuel _ scope hown

/-- A function that gives its argument, the variable that it is bound to, and an adapter for it. -/
def callStore : Store :=
  { Store.empty [] with
    dicts := #[.ofTexts [("f", .closure ⟨0⟩)]]
    scopes := #[⟨.dict ⟨0⟩, .nil, .nil⟩]
    closures := #[⟨.node (.group .array [.leaf .identifier "x" default] default),
      .tuple 0 [.node (.leaf .identifier "x" default)], .scope ⟨0⟩⟩]
    functions := #[⟨.adapter (.closure ⟨0⟩) (.scope ⟨0⟩), []⟩] }

theorem calls_agree_argument :
    (call 12 (.form .negate) [.bool true] callStore).Alike Store.SameButAdapters
      (invoke 11 .nil (.form .negate) [Machine.wrap (.bool true)]
        (callStore.addScope [] .nil).2) ∧
    call 12 (.function ⟨.plain, 0⟩) [.bool true] callStore =
      invoke 11 (.scope ⟨0⟩) (.closure ⟨0⟩) [Machine.wrap (.bool true)] callStore ∧
    call 12 (.closure ⟨0⟩) [.bool true] callStore =
      invoke 11 .nil (.closure ⟨0⟩) [Machine.wrap (.bool true)] callStore ∧
    apply 13 (.scope ⟨0⟩) (.node (.leaf .identifier "f" default))
        [.node (.leaf .keyword "true" default)] .nil callStore =
      Action.framed ⟨some "f", .nil⟩
        (invoke 12 .nil (.closure ⟨0⟩) [Machine.wrap (.bool true)]) callStore := by
  obtain ⟨-, hform, hadapter, hclosure, hscript⟩ := calls_agree 10 [.bool true] callStore
  refine ⟨hform .negate ⟨1⟩ _ .nil rfl ⟨?_, ?_⟩, hadapter ⟨.plain, 0⟩ _ _ [] rfl,
    hclosure ⟨0⟩ _ .nil rfl, hscript ⟨0⟩ _ .nil _ _ .nil _ _ rfl rfl⟩
  · intro form hform
    cases hform
    rfl
  · intro v fn rest items t hform
    cases hform

/-- Two scopes, and a function of the host that gives its argument. -/
def scopeStore : Store :=
  { Store.empty [] with
    scopes := #[⟨.nil, .nil, .nil⟩, ⟨.nil, .nil, .nil⟩]
    functions := #[⟨.host .identity, []⟩] }

/-- A form that was made to do something else gets the scope that it is invoked from. -/
theorem calls_disagree :
    ∃ t, Property.set (.form .comment) (.str "fn") (.function ⟨.plain, 0⟩) scopeStore = .done () t ∧
      invoke 2 (.scope ⟨0⟩) (.form .comment) [] t = .done (.scope ⟨0⟩) t ∧
      invoke 2 (.scope ⟨1⟩) (.form .comment) [] t = .done (.scope ⟨1⟩) t :=
  ⟨_, rfl, rfl, rfl⟩

end Lisplet
