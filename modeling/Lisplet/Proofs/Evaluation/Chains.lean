import Lisplet.Proofs.Evaluation.Applications

/-!
# Chains

A chain passes a value through one step after the other. It ends like the calls inside each other
that its steps stand for, although these look up all heads first and evaluate the innermost call
last: a chain of functions is the call of the last function on the chain before it (`doto_spec`),
and a chain of methods is the call of the last method of what the chain before it gives
(`thread_spec`). Only what a script itself has put in the place of a form, or of the variables of a
scope, can tell them apart (`doto_disagrees`, `thread_disagrees`).
-/

namespace Lisplet

open Lisplet.Action

/-! ## Steps -/

theorem Action.subscript_first (head : Value) (rest : List Value) (id : Nat) :
    subscript (.tuple id (head :: rest)) (.int 0) = pure head := by
  have hplace : placeFromEnd? (rest.length + 1) 0 = some 0 := by
    unfold placeFromEnd? place?
    rw [if_pos (by simp)]
    rfl
  unfold subscript atPosition
  simp [Value.index?, hplace]

/-- A step of a chain as it stands in a source: a name, or a call of it with operands. -/
inductive ChainStep where
  | bare (name : String) (mark : Mark)
  | call (name : String) (head mark : Mark) (operands : List Expr)

namespace ChainStep

/-- The name of the function or the method. -/
def name : ChainStep → String
  | .bare name _ => name
  | .call name _ _ _ => name

/-- The operands that stand in the step. -/
def operands : ChainStep → List Expr
  | .bare _ _ => []
  | .call _ _ _ operands => operands

/-- The name as a node. -/
def head : ChainStep → Expr
  | .bare name mark => .leaf .identifier name mark
  | .call name head _ _ => .leaf .identifier name head

/-- The step as a node. -/
def node : ChainStep → Expr
  | .bare name mark => .leaf .identifier name mark
  | .call name head mark operands => .group .call (.leaf .identifier name head :: operands) mark

/-- A step is taken apart into its name and its operands. -/
theorem stepParts_node (step : ChainStep) :
    Form.stepParts (.node step.node) = pure (.node step.head, step.operands.map .node) := by
  cases step with
  | bare name mark => rfl
  | call name head mark operands =>
    have hfirst := subscript_first (.node (.leaf .identifier name head)) (operands.map .node)
      (mark.id + 1)
    have hparts : Form.callParts? (.node (.group .call (.leaf .identifier name head :: operands)
        mark)) = pure (some (.node (.leaf .identifier name head), operands.map .node)) := by
      funext s
      show (Action.subscript (.tuple (mark.id + 1)
        (.node (.leaf .identifier name head) :: operands.map .node)) (.int 0) >>= _) s = _
      rw [hfirst]
      rfl
    show (Form.callParts?
      (.node (.group .call (.leaf .identifier name head :: operands) mark)) >>= _) = _
    rw [hparts]
    rfl

theorem content_head (step : ChainStep) :
    Operand.content (.node step.head) = pure (.str step.name) := by
  cases step <;> rfl

theorem headValue_head (step : ChainStep) (m : Machine) (r : ScopeRef) :
    m.headValue (.scope r) (.node step.head) = r.get step.name := by
  cases step <;> rfl

end ChainStep

/-- The expression that steps make of `x` one after the other, each of them of the expression so
far. -/
inductive Chain (link : Expr → ChainStep → Expr → Prop) (x : Expr) :
    List ChainStep → Expr → Prop where
  | start : Chain link x [] x
  | link {steps : List ChainStep} {step : ChainStep} {p q : Expr} (h : Chain link x steps p)
    (hstep : link p step q) : Chain link x (steps ++ [step]) q

/-- A call of the function that the step names, with `p` as first operand. -/
def CallsFirst (p : Expr) (step : ChainStep) (q : Expr) : Prop :=
  ∃ head mark, q = .group .call (.leaf .identifier step.name head :: p :: step.operands) mark

/-- A call of the member of `p` that the step names. -/
def CallsMember (p : Expr) (step : ChainStep) (q : Expr) : Prop :=
  ∃ head access key mark, q = .group .call
    (Form.getPath.callNode head access [p, .leaf .string step.name key] :: step.operands) mark

/-- Any number of operands is enough for a form that takes any number of them. -/
theorem Signature.check_variadic {sig : Signature} {given : Nat} (h : sig.variadic = true)
    (hgiven : sig.required.length ≤ given) : sig.check given = pure () := by
  unfold check
  rw [h, if_neg (by simp), if_neg (by omega)]

namespace Form

variable (m : Machine) (scope : Value)

theorem notFunction_bind {α β : Type} (node name : Value) (f : α → Action β) :
    notFunction node name >>= f = notFunction node name := by
  unfold notFunction
  simp only [bind_assoc]
  exact bind_congr fun text => bind_congr fun frame => rfl

/-- Passes a value through one step of a chain of functions. -/
def doStep (v step : Value) : Action Value := do
  let (node, operands) ← stepParts step
  let name ← Operand.content node
  if !(← m.lookup scope name).isCallable then notFunction node name
  else
    let line ← Operand.line step
    m.apply scope node (.node (.host v line 0) :: operands) line

/-- Passes a value through one step of a chain of methods. -/
def threadStep (v step : Value) : Action Value := do
  let (node, operands) ← stepParts step
  let name ← Operand.content node
  let member ← Property.get v name
  if !member.isCallable then notFunction node name else m.applied scope member operands

theorem doThrough_eq_foldlM (v : Value) (steps : List Value) :
    doThrough m scope v steps = steps.foldlM (doStep m scope) v := by
  induction steps generalizing v with
  | nil => rfl
  | cons step rest ih =>
    rw [List.foldlM_cons]
    conv_lhs => unfold doThrough
    conv_rhs => arg 1; unfold doStep
    simp only [bind_assoc, ih]
    refine bind_congr fun parts => bind_congr fun name => bind_congr fun f => ?_
    split
    · exact (notFunction_bind _ _ _).symm
    · simp only [bind_assoc]

theorem threadThrough_eq_foldlM (v : Value) (steps : List Value) :
    threadThrough m scope v steps = steps.foldlM (threadStep m scope) v := by
  induction steps generalizing v with
  | nil => rfl
  | cons step rest ih =>
    rw [List.foldlM_cons]
    conv_lhs => unfold threadThrough
    conv_rhs => arg 1; unfold threadStep Machine.applied
    simp only [bind_assoc, ih]
    refine bind_congr fun parts => bind_congr fun name => bind_congr fun f => ?_
    split
    · exact (notFunction_bind _ _ _).symm
    · split <;> simp only [bind_assoc]

theorem run_doto (x : Expr) (steps : List Value) :
    Form.doto.run m scope (.node x :: steps) =
      m.eval scope (.node x) >>= fun v => steps.foldlM (doStep m scope) v := by
  unfold run
  rw [Signature.check_variadic rfl (by simp [signature]), pure_bind]
  simp only [← doThrough_eq_foldlM]
  rfl

theorem run_thread (x : Expr) (steps : List Value) :
    Form.thread.run m scope (.node x :: steps) =
      m.eval scope (.node x) >>= fun v => steps.foldlM (threadStep m scope) v := by
  unfold run
  rw [Signature.check_variadic rfl (by simp [signature]), pure_bind]
  simp only [← threadThrough_eq_foldlM]
  rfl

/-- A step of a chain of functions in a scope, with so many steps of evaluation. -/
def doStepIn (r : ScopeRef) (n : Nat) (v : Value) (step : ChainStep) : Action Value :=
  doStep (machine n) (.scope r) v (.node step.node)

/-- A step of a chain of methods in a scope, with so many steps of evaluation. -/
def threadStepIn (r : ScopeRef) (n : Nat) (v : Value) (step : ChainStep) : Action Value :=
  threadStep (machine n) (.scope r) v (.node step.node)

theorem doStep_related {R : Congruence} {m m' : Machine} (h : m.Related R m')
    (scope v step : Value) : R.rel (doStep m scope v step) (doStep m' scope v step) := by
  refine R.after (stepParts_candid step) fun (node, operands) => ?_
  refine R.after (Operand.content_candid node) fun name => ?_
  refine R.bind (Machine.lookup_related h scope name) fun f => ?_
  split
  · exact R.candid (notFunction_candid node name)
  · exact R.after (Operand.line_candid step) fun line => h.apply scope node _ line

theorem threadStep_related {R : Congruence} {m m' : Machine} (h : m.Related R m')
    (scope v step : Value) : R.rel (threadStep m scope v step) (threadStep m' scope v step) := by
  refine R.after (stepParts_candid step) fun (node, operands) => ?_
  refine R.after (Operand.content_candid node) fun name => ?_
  refine R.after (Property.get_candid v name) fun member => ?_
  split
  · exact R.candid (notFunction_candid node name)
  · exact Machine.applied_related h scope member operands

theorem increasing_doStepIn (r : ScopeRef) (v : Value) (step : ChainStep) :
    Increasing (doStepIn r · v step) :=
  .of_related (a := fun m => doStep m (.scope r) v (.node step.node)) fun h =>
    doStep_related h _ _ _

theorem increasing_threadStepIn (r : ScopeRef) (v : Value) (step : ChainStep) :
    Increasing (threadStepIn r · v step) :=
  .of_related (a := fun m => threadStep m (.scope r) v (.node step.node)) fun h =>
    threadStep_related h _ _ _

end Form

/-! ## Expressions inside each other -/

/-- Passes the value of an expression through steps. -/
def chained (step : Nat → Value → ChainStep → Action Value) (scope : Value) (x : Expr)
    (steps : List ChainStep) (n : Nat) : Action Value :=
  eval n scope (.node x) >>= fun v => steps.foldlM (step n) v

/-- A form that passes the value of its first operand through the other ones. -/
theorem Form.Core.concludes_steps {form : Form} {r : ScopeRef} {s : Store} {x : Expr}
    {c : Conclusion Value} {step : Machine → Value → Value → Action Value} (h : form.Core r s)
    (hrun : ∀ m steps, form.run m (.scope r) (.node x :: steps) =
      m.eval (.scope r) (.node x) >>= fun v => steps.foldlM (step m) v)
    (head mark : Mark) (steps : List ChainStep) :
    Concludes (eval · (.scope r)
        (.node (form.callNode head mark (x :: steps.map ChainStep.node)))) s c ↔
      Concludes (chained (fun n v st => step (machine n) v (.node st.node)) (.scope r) x steps)
        s c := by
  rw [h.concludes_callNode]
  simp only [List.map_cons, hrun, List.foldlM_map]
  rfl

/-- Steps conclude like the expression that they make of `x` if each step makes of a part of it an
expression that concludes like the part and then the step. -/
theorem concludes_chained {link : Expr → ChainStep → Expr → Prop} {scope : Value} {x nested : Expr}
    {s : Store} {step : Nat → Value → ChainStep → Action Value}
    (hstep : ∀ v st, Increasing (step · v st)) {steps : List ChainStep}
    (h : Chain link x steps nested)
    (hlink : ∀ before st p q, before ++ [st] <+: steps → Chain link x before p → link p st q →
      (∀ c, Concludes (chained step scope x before) s c ↔ Concludes (eval · scope (.node p)) s c) →
        ∀ c, Concludes (eval · scope (.node q)) s c ↔
          Conclusion.Then (Concludes (eval · scope (.node p)) s)
            (fun v t => Concludes (step · v st) t) c)
    (c : Conclusion Value) :
    Concludes (chained step scope x steps) s c ↔ Concludes (eval · scope (.node nested)) s c := by
  -- The steps stand in the order in which they are taken, so that the last one is split off.
  induction h generalizing c with
  | start =>
    unfold chained
    simp only [List.foldlM_nil, bind_pure]
  | @link before st p q hbefore hq ih =>
    have hpart := ih fun before' st' p' q' hstarts =>
      hlink before' st' p' q' (hstarts.trans (List.prefix_append _ _))
    have hlast : chained step scope x (before ++ [st]) =
        fun n => chained step scope x before n >>= fun v => step n v st := by
      funext n
      unfold chained
      simp only [List.foldlM_append, List.foldlM_cons, List.foldlM_nil, bind_pure, bind_assoc]
    have hincreasing : Increasing (chained step scope x before) :=
      .bind (.eval _ _) fun v => .foldlM hstep before v
    rw [hlast, Concludes.bind hincreasing fun v => hstep v st,
      Conclusion.Then.congr hpart fun _ _ _ => Iff.rfl]
    exact (hlink before st p q (List.prefix_refl _) hbefore hq hpart c).symm

/-! ## Chains of functions -/

section Functions

variable {r : ScopeRef} {s t : Store} {x : Expr} {c : Conclusion Value}

/-- A step whose name finds a function applies it to the value and the operands of the step. -/
theorem concludes_doStep {step : ChainStep} {f v : Value} (hname : r.get step.name t = .done f t)
    (hf : f.isCallable) :
    Concludes (Form.doStepIn r · v step) t c ↔
      Concludes (fun n => (machine n).applied (.scope r) f
        (.node (.host v (lineOf step.node) 0) :: step.operands.map .node)) t c := by
  refine Concludes.shift (Form.increasing_doStepIn r v step) 1 fun n => ?_
  have hhead : (machine n).headValue (.scope r) (.node step.head) t = .done f t := by
    rw [step.headValue_head]
    exact hname
  have hstep : Form.doStepIn r (n + 1) v step t =
      (machine (n + 1)).apply (.scope r) (.node step.head)
        (.node (.host v (lineOf step.node) 0) :: step.operands.map .node) (lineOf step.node) t := by
    unfold Form.doStepIn Form.doStep
    rw [step.stepParts_node, pure_bind]
    dsimp only
    rw [step.content_head, pure_bind]
    refine (bind_of_done hname).trans ?_
    rw [hf]
    rfl
  rw [hstep]
  exact (conclusion?_framed _ _ t).trans
    (congrArg Outcome.conclusion? (Machine.application_of_head hhead hf))

/-- Whenever the name of a step is looked up, the same function is found, which is no form, and
nothing changes: before the chain, and after the steps before it. -/
structure Resolves (r : ScopeRef) (s : Store) (head mark : Mark) (x : Expr)
    (steps : List ChainStep) (callee : String → Value) : Prop where
  callable : ∀ step ∈ steps, (callee step.name).isCallable
  noForm : ∀ step ∈ steps, ∀ form, callee step.name ≠ .form form
  first : ∀ step ∈ steps, r.get step.name s = .done (callee step.name) s
  along : ∀ before step, before ++ [step] <+: steps → ∀ v t,
    Concludes (eval · (.scope r)
      (.node (Form.doto.callNode head mark (x :: before.map ChainStep.node)))) s (.value v t) →
        r.get step.name t = .done (callee step.name) t

theorem Chain.kind_ne_rest {steps : List ChainStep} {p : Expr} (hx : x.kind ≠ .leaf .rest)
    (h : Chain CallsFirst x steps p) : p.kind ≠ .leaf .rest := by
  cases h with
  | start => exact hx
  | link _ hstep =>
    obtain ⟨head, mark, rfl⟩ := hstep
    exact nofun

/-- A chain of functions comes to the same conclusions as the calls inside each other, each of which
has the call before it as its first operand. -/
theorem doto_spec {head mark : Mark} {steps : List ChainStep} {callee : String → Value}
    {nested : Expr} (hdoto : Form.doto.Core r s) (hx : x.kind ≠ .leaf .rest)
    (hnames : Resolves r s head mark x steps callee) (hnested : Chain CallsFirst x steps nested)
    (c : Conclusion Value) :
    Concludes (eval · (.scope r)
        (.node (Form.doto.callNode head mark (x :: steps.map ChainStep.node)))) s c ↔
      Concludes (eval · (.scope r) (.node nested)) s c := by
  have hsteps : ∀ before c, Concludes (eval · (.scope r) (.node
      (Form.doto.callNode head mark (x :: before.map ChainStep.node)))) s c ↔
        Concludes (chained (Form.doStepIn r) (.scope r) x before) s c := fun before _ =>
    hdoto.concludes_steps (fun m steps => Form.run_doto m (.scope r) x steps) head mark before
  rw [hsteps]
  refine concludes_chained (Form.increasing_doStepIn r) hnested
    (fun before step p q hstarts hp hq ih c => ?_) c
  have hmem : step ∈ steps := hstarts.subset (by simp)
  obtain ⟨head', mark', rfl⟩ := hq
  -- The calls inside each other look the name up before everything else, the chain after the steps
  -- before it.
  rw [concludes_call_of_name (hnames.first step hmem) (hnames.callable step hmem)]
  refine (concludes_applied_cons (hnames.noForm step hmem) (hp.kind_ne_rest hx)
    (lineOf step.node) 0).trans (Conclusion.Then.congr (fun _ => Iff.rfl) fun v t hv => ?_)
  have hbefore := (hsteps before _).mpr ((ih _).mpr hv)
  exact (concludes_doStep (hnames.along before step hstarts v t hbefore)
    (hnames.callable step hmem)).symm

end Functions

/-- A scope with the forms that chains are made of, a function that makes lists and a dictionary
with it, a scope inside that scope, and an iterator. -/
def chainStore : Store :=
  { Store.empty [] with
    dicts := #[.ofTexts [("doto", .form .doto), ("thread", .form .thread),
      ("aget", .form .getPath), ("list", .function ⟨.plain, 0⟩), ("tools", .dict ⟨2⟩)],
      .empty, .ofTexts [("list", .function ⟨.plain, 0⟩)]]
    scopes := #[⟨.dict ⟨0⟩, .nil, .nil⟩, ⟨.dict ⟨1⟩, .nil, .scope ⟨0⟩⟩]
    functions := #[⟨.host .list, []⟩]
    iterators := #[[.str "y"]] }

/-- A text as it stands in a source. -/
def textNode (text : String) : Expr := .leaf .string text default

/-- A call as it stands in a source. -/
def callNode (name : String) (operands : List Expr) : Expr :=
  .group .call (.leaf .identifier name default :: operands) default

/-- A list of a text, and then a list of it and another text. -/
theorem doto_spec_lists :
    Resolves ⟨0⟩ chainStore default default (textNode "x")
        [.bare "list" default, .call "list" default default [textNode "y"]]
        (fun _ => .function ⟨.plain, 0⟩) ∧
      ∃ t, Concludes (eval · (.scope ⟨0⟩)
        (.node (callNode "list" [callNode "list" [textNode "x"], textNode "y"]))) chainStore
          (.value (.list ⟨1⟩) t) ∧ t.list ⟨1⟩ = #[.list ⟨0⟩, .str "y"] := by
  have hnames : Resolves ⟨0⟩ chainStore default default (textNode "x")
      [.bare "list" default, .call "list" default default [textNode "y"]]
      (fun _ => .function ⟨.plain, 0⟩) := by
    refine ⟨fun _ _ => rfl, fun _ _ => nofun, ?_, fun before step hstarts v t h => ?_⟩
    · simp only [List.forall_mem_cons]
      exact ⟨rfl, rfl, nofun⟩
    · rcases before with _ | ⟨first, _ | ⟨second, rest⟩⟩
      · obtain ⟨rfl, _⟩ := List.cons_prefix_cons.mp hstarts
        cases Concludes.unique (.eval _ _) h ⟨5, rfl⟩
        rfl
      · obtain ⟨rfl, hrest⟩ := List.cons_prefix_cons.mp hstarts
        obtain ⟨rfl, _⟩ := List.cons_prefix_cons.mp hrest
        cases Concludes.unique (.eval _ _) h ⟨8, rfl⟩
        rfl
      · have hlength := hstarts.length_le
        simp at hlength
  refine ⟨hnames, _, (doto_spec ⟨rfl, rfl⟩ (by decide) hnames
    (.link (.link .start ⟨default, default, rfl⟩) ⟨default, default, rfl⟩) _).mp ⟨8, rfl⟩, rfl⟩

/-- A chain of functions differs from the calls inside each other where a script has given the form
something else to do, which makes a list of the scope and the operands, and where it has put an
iterator in the place of the variables of a scope, which looking up the form uses up. -/
theorem doto_disagrees :
    (∃ t c, Property.set (.form .doto) (.str "fn") (.function ⟨.plain, 0⟩) chainStore =
        .done () t ∧
      ScopeRef.get ⟨0⟩ "doto" t = .done (.form .doto) t ∧
      Resolves ⟨0⟩ t default default (textNode "x") [.bare "list" default]
        (fun _ => .function ⟨.plain, 0⟩) ∧
      Concludes (eval · (.scope ⟨0⟩)
        (.node (callNode "doto" [textNode "x", .leaf .identifier "list" default]))) t c ∧
      ¬ Concludes (eval · (.scope ⟨0⟩) (.node (callNode "list" [textNode "x"]))) t c) ∧
    ∃ t u c, Property.set (.scope ⟨1⟩) (.str "vars") (.iterator ⟨.elements, 0⟩) chainStore =
        .done () t ∧
      ScopeRef.get ⟨1⟩ "doto" t = .done (.form .doto) u ∧
      Concludes (eval · (.scope ⟨1⟩) (.node (callNode "doto" [textNode "x"]))) t c ∧
      ¬ Concludes (eval · (.scope ⟨1⟩) (.node (textNode "x"))) t c := by
  refine ⟨⟨_, _, rfl, rfl, ⟨fun _ _ => rfl, fun _ _ => nofun, ?_, ?_⟩, ⟨8, rfl⟩, fun h => ?_⟩,
    _, _, _, rfl, rfl, ⟨8, rfl⟩, fun h => ?_⟩
  · simp only [List.forall_mem_cons]
    exact ⟨rfl, nofun⟩
  · intro before step hstarts v t h
    rcases before with _ | ⟨first, rest⟩
    · obtain ⟨rfl, _⟩ := List.cons_prefix_cons.mp hstarts
      cases Concludes.unique (.eval _ _) h ⟨8, rfl⟩
      rfl
    · have hlength := hstarts.length_le
      simp at hlength
  · have hsame := Concludes.unique (.eval _ _) h ⟨8, rfl⟩
    injection hsame with _ hstore
    have hsize := congrArg (fun t => (t.list ⟨0⟩).size) hstore
    exact absurd hsize (by decide)
  · have hsame := Concludes.unique (.eval _ _) h ⟨1, rfl⟩
    injection hsame with _ hstore
    have hitems := congrArg (fun t => (t.iterator ⟨.elements, 0⟩).length) hstore
    exact absurd hitems (by decide)

/-! ## Chains of methods -/

section Methods

variable {r : ScopeRef} {s t : Store} {x : Expr} {c : Conclusion Value}

theorem evalPath_string (n : Nat) (scope : Value) (name : String) (key : Mark) :
    Form.evalPath (machine (n + 1)) scope [.node (.leaf .string name key)] = pure [.str name] :=
  rfl

theorem Property.getPath_singleton (v key : Value) : getPath v [key] = get v key := by
  unfold getPath
  rw [List.foldlM_cons]
  simp only [List.foldlM_nil, bind_pure]

/-- A member that is read by its name is read from the value of the expression. -/
theorem Form.Core.concludes_member (h : Form.getPath.Core r s) (head mark key : Mark) (p : Expr)
    (name : String) :
    Concludes (eval · (.scope r)
        (.node (Form.getPath.callNode head mark [p, .leaf .string name key]))) s c ↔
      Conclusion.Then (Concludes (eval · (.scope r) (.node p)) s)
        (fun v t => Concludes (fun _ => Property.get v (.str name)) t) c := by
  rw [h.concludes_callNode]
  have hpath : ∀ v, Increasing fun n =>
      Form.evalPath (machine n) (.scope r) [.node (.leaf .string name key)] >>=
        Property.getPath v :=
    fun v => .bind (.of_related fun h => Form.evalPath_related h _ _) fun _ => .const _
  have hrun : ∀ n, Form.getPath.run (machine n) (.scope r)
      ([p, .leaf .string name key].map .node) = eval n (.scope r) (.node p) >>= fun v =>
        Form.evalPath (machine n) (.scope r) [.node (.leaf .string name key)] >>=
          Property.getPath v := by
    intro n
    unfold Form.run
    rw [Signature.check_variadic rfl (by simp [Form.signature]), pure_bind]
    rfl
  simp only [hrun]
  rw [Concludes.bind (.eval _ _) hpath]
  refine Conclusion.Then.congr (fun _ => Iff.rfl) fun v t _ => ?_
  refine Concludes.shift (hpath v) 1 fun n => ?_
  rw [evalPath_string, pure_bind, Property.getPath_singleton]

/-- Applies what was found if it can be called. -/
def Machine.appliedIf (m : Machine) (scope f : Value) (operands : List Value)
    (otherwise : Action Value) : Action Value :=
  if f.isCallable then m.applied scope f operands else otherwise

theorem increasing_appliedIf (scope f : Value) (operands : List Value) (otherwise : Action Value) :
    Increasing fun n => (machine n).appliedIf scope f operands otherwise := by
  unfold Machine.appliedIf
  split
  · exact increasing_applied scope f operands
  · exact .const otherwise

/-- What cannot be called is an error of one class in all calls. -/
theorem concludes_appliedIf {scope f : Value} {operands : List Value} {a b : Action Value}
    (h : (a t).conclusion? = (b t).conclusion?) :
    Concludes (fun n => (machine n).appliedIf scope f operands a) t c ↔
      Concludes (fun n => (machine n).appliedIf scope f operands b) t c := by
  refine exists_congr fun n => ?_
  unfold Machine.appliedIf
  split
  · rfl
  · rw [h]

/-- A step finds the member of its name and applies it to the operands of the step. -/
theorem concludes_threadStep (v : Value) (step : ChainStep) :
    Concludes (Form.threadStepIn r · v step) t c ↔
      Conclusion.Then (Concludes (fun _ => Property.get v (.str step.name)) t)
        (fun f u => Concludes (fun n => (machine n).appliedIf (.scope r) f
          (step.operands.map .node) (Form.notFunction (.node step.head) (.str step.name))) u)
        c := by
  have hstep : (Form.threadStepIn r · v step) = fun n => Property.get v (.str step.name) >>=
      fun f => (machine n).appliedIf (.scope r) f (step.operands.map .node)
        (Form.notFunction (.node step.head) (.str step.name)) := by
    funext n
    unfold Form.threadStepIn Form.threadStep Machine.appliedIf
    rw [step.stepParts_node, pure_bind]
    dsimp only
    rw [step.content_head, pure_bind]
    refine bind_congr fun f => ?_
    cases f.isCallable <;> rfl
  rw [hstep]
  exact Concludes.bind (.const _) fun f => increasing_appliedIf _ _ _ _

/-- A call whose head is an expression evaluates it and applies its value. -/
theorem concludes_call_of_group {scope : Value} {kind : GroupKind} {items : List Expr}
    {inner : Mark} (operands : List Expr) (mark : Mark) :
    Concludes (eval · scope
        (.node (.group .call (.group kind items inner :: operands) mark))) s c ↔
      Conclusion.Then (Concludes (eval · scope (.node (.group kind items inner))) s)
        (fun f t => Concludes (fun n => (machine n).appliedIf scope f (operands.map .node)
          (do .raise (.notFunction (← Machine.headName (.node (.group kind items inner)))))) t)
        c := by
  have happlication : (fun n => (machine n).application scope (.node (.group kind items inner))
      (operands.map .node)) = fun n => eval n scope (.node (.group kind items inner)) >>= fun f =>
        (machine n).appliedIf scope f (operands.map .node)
          (do .raise (.notFunction (← Machine.headName (.node (.group kind items inner))))) := by
    funext n
    refine bind_congr fun f => ?_
    unfold Machine.appliedIf Machine.applied
    cases f <;> rfl
  rw [concludes_call, happlication]
  exact Concludes.bind (.eval _ _) fun f => increasing_appliedIf _ _ _ _

/-- A chain of methods comes to the same conclusions as the calls inside each other, each of which
calls a member of the call before it. -/
theorem thread_spec {head mark : Mark} {steps : List ChainStep} {nested : Expr}
    (hthread : Form.thread.Core r s) (hmember : Form.getPath.Core r s)
    (hnested : Chain CallsMember x steps nested) (c : Conclusion Value) :
    Concludes (eval · (.scope r)
        (.node (Form.thread.callNode head mark (x :: steps.map ChainStep.node)))) s c ↔
      Concludes (eval · (.scope r) (.node nested)) s c := by
  refine (hthread.concludes_steps (fun m steps => Form.run_thread m (.scope r) x steps)
    head mark steps).trans ?_
  refine concludes_chained (Form.increasing_threadStepIn r) hnested
    (fun before step p q _ _ hq _ c => ?_) c
  obtain ⟨head', access, key, mark', rfl⟩ := hq
  refine (concludes_call_of_group _ _).trans ?_
  refine (Conclusion.Then.congr (fun c => hmember.concludes_member head' access key p step.name)
    fun _ _ _ => Iff.rfl).trans ?_
  refine Conclusion.Then.assoc.trans (Conclusion.Then.congr (fun _ => Iff.rfl) fun v t _ => ?_)
  refine ((concludes_threadStep v step).trans
    (Conclusion.Then.congr (fun _ => Iff.rfl) fun f u _ => ?_)).symm
  exact concludes_appliedIf rfl

end Methods

/-- A call of a member as it stands in a source. -/
def memberCallNode (p : Expr) (name : String) (operands : List Expr) : Expr :=
  .group .call (callNode "aget" [p, textNode name] :: operands) default

/-- A list that a function in a dictionary makes gets another element. -/
theorem thread_spec_pushed :
    ∃ t, Concludes (eval · (.scope ⟨0⟩)
      (.node (memberCallNode
        (memberCallNode (.leaf .identifier "tools" default) "list" [textNode "a"])
        "push" [textNode "b"]))) chainStore (.value (.int 2) t) := by
  have hchain : Chain CallsMember (.leaf .identifier "tools" default)
      [.call "list" default default [textNode "a"], .call "push" default default [textNode "b"]]
      (memberCallNode (memberCallNode (.leaf .identifier "tools" default) "list" [textNode "a"])
        "push" [textNode "b"]) :=
    .link (.link .start ⟨default, default, default, default, rfl⟩)
      ⟨default, default, default, default, rfl⟩
  have hthread : ∃ t, Concludes (eval · (.scope ⟨0⟩) (.node (callNode "thread"
      [.leaf .identifier "tools" default, callNode "list" [textNode "a"],
        callNode "push" [textNode "b"]]))) chainStore (.value (.int 2) t) := ⟨_, 8, rfl⟩
  obtain ⟨t, hvalue⟩ := hthread
  exact ⟨t, (thread_spec ⟨rfl, rfl⟩ ⟨rfl, rfl⟩ hchain _).mp hvalue⟩

/-- The store in which the form was made to make a list of the scope and the operands. -/
def Store.listing (s : Store) (form : Form) : Store :=
  { s with formBodies := [(form, .function ⟨.plain, 0⟩)] }

/-- A chain of methods differs from the calls inside each other where a script has given one of the
forms something else to do, and where it has put an iterator in the place of the variables of a
scope, which looking up the form uses up. -/
theorem thread_disagrees :
    (∀ form ∈ [Form.thread, .getPath],
      ∃ t c, Property.set (.form form) (.str "fn") (.function ⟨.plain, 0⟩) chainStore =
          .done () t ∧
        ScopeRef.get ⟨0⟩ "thread" t = .done (.form .thread) t ∧
        ScopeRef.get ⟨0⟩ "aget" t = .done (.form .getPath) t ∧
        Concludes (eval · (.scope ⟨0⟩) (.node (callNode "thread"
          [callNode "list" [textNode "a"], callNode "push" [textNode "b"]]))) t c ∧
        ¬ Concludes (eval · (.scope ⟨0⟩)
          (.node (memberCallNode (callNode "list" [textNode "a"]) "push" [textNode "b"]))) t c) ∧
    ∃ t u c, Property.set (.scope ⟨1⟩) (.str "vars") (.iterator ⟨.elements, 0⟩) chainStore =
        .done () t ∧
      ScopeRef.get ⟨1⟩ "thread" t = .done (.form .thread) u ∧
      Concludes (eval · (.scope ⟨1⟩) (.node (callNode "thread" [textNode "x"]))) t c ∧
      ¬ Concludes (eval · (.scope ⟨1⟩) (.node (textNode "x"))) t c := by
  refine ⟨?_, _, _, _, rfl, rfl, ⟨8, rfl⟩, fun h => ?_⟩
  · simp only [List.forall_mem_cons]
    refine ⟨⟨chainStore.listing .thread, _, rfl, rfl, rfl, ⟨8, rfl⟩, fun h => ?_⟩,
      ⟨chainStore.listing .getPath, _, rfl, rfl, rfl, ⟨8, rfl⟩, fun h => ?_⟩, nofun⟩
    · cases Concludes.unique (.eval _ _) h ⟨8, rfl⟩
    · cases Concludes.unique (.eval _ _) h ⟨8, rfl⟩
  · have hsame := Concludes.unique (.eval _ _) h ⟨1, rfl⟩
    injection hsame with _ hstore
    have hitems := congrArg (fun t => (t.iterator ⟨.elements, 0⟩).length) hstore
    exact absurd hitems (by decide)

end Lisplet
