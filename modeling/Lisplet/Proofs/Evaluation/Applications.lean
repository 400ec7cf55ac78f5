import Lisplet.Proofs.Evaluation.Conclusions
import Lisplet.Proofs.Evaluation.Conventions

/-!
# Applications

What a call comes to once it is known what its head denotes. A form runs, and a closure or another
function takes its operands one after the other, so that it is all the same to it whether the first
one is evaluated by the call or has been before (`concludes_applied_cons`).
-/

namespace Lisplet

open Lisplet.Action

/-! ## Calls -/

/-- A call applies its head, and an error that leaves it takes a frame along. -/
theorem eval_call (fuel : Nat) (scope : Value) (head : Expr) (operands : List Expr) (mark : Mark) :
    eval (fuel + 2) scope (.node (.group .call (head :: operands) mark)) =
      framed ⟨firstIdent (.node head :: operands.map .node),
          lineOf (.group .call (head :: operands) mark)⟩
        ((machine fuel).application scope (.node head) (operands.map .node)) :=
  rfl

theorem increasing_application (scope head : Value) (operands : List Value) :
    Increasing fun n => (machine n).application scope head operands :=
  .of_related fun h => Machine.application_related h scope head operands

theorem concludes_call {scope : Value} {s : Store} {c : Conclusion Value} (head : Expr)
    (operands : List Expr) (mark : Mark) :
    Concludes (eval · scope (.node (.group .call (head :: operands) mark))) s c ↔
      Concludes (fun n => (machine n).application scope (.node head) (operands.map .node)) s c := by
  refine Concludes.shift (.eval _ _) 2 fun n => ?_
  rw [eval_call, conclusion?_framed]

/-! ## Forms -/

/-- In the scope the name of the form finds the form, and looking it up changes nothing. The form
does what it does by itself. -/
structure Form.Core (form : Form) (r : ScopeRef) (s : Store) : Prop where
  found : r.get form.name s = .done (.form form) s
  own : s.formBodies.lookup form = none

/-- A call of a form by its name. -/
def Form.callNode (form : Form) (head mark : Mark) (operands : List Expr) : Expr :=
  .group .call (.leaf .identifier form.name head :: operands) mark

namespace Form

variable {form : Form} {r : ScopeRef} {s t : Store} {c : Conclusion Value}

theorem application_of_get (hget : r.get form.name s = .done (.form form) t)
    (hown : t.formBodies.lookup form = none) (fuel : Nat) (head : Mark) (operands : List Value) :
    (machine (fuel + 1)).application (.scope r) (.node (.leaf .identifier form.name head))
        operands s =
      form.run (machine fuel) (.scope r) operands t := by
  have hhead : (machine (fuel + 1)).headValue (.scope r)
      (.node (.leaf .identifier form.name head)) s = .done (.form form) t := hget
  exact (bind_of_done hhead).trans (Machine.invokeForm_own hown _)

/-- A call of a form is a run of it in the store that looking it up leaves behind. -/
theorem concludes_callNode_of_get (hget : r.get form.name s = .done (.form form) t)
    (hown : t.formBodies.lookup form = none) (head mark : Mark) (operands : List Expr) :
    Concludes (eval · (.scope r) (.node (form.callNode head mark operands))) s c ↔
      Concludes (fun n => form.run (machine n) (.scope r) (operands.map .node)) t c := by
  refine (concludes_call _ _ _).trans (Concludes.shift (increasing_application _ _ _) 1 fun n => ?_)
  rw [application_of_get hget hown]

/-- A call of a form is a run of it. -/
theorem Core.concludes_callNode (h : form.Core r s) (head mark : Mark) (operands : List Expr) :
    Concludes (eval · (.scope r) (.node (form.callNode head mark operands))) s c ↔
      Concludes (fun n => form.run (machine n) (.scope r) (operands.map .node)) s c :=
  concludes_callNode_of_get h.found h.own head mark operands

end Form

/-! ## Functions -/

/-- Applies something that can be called to operands. -/
def Machine.applied (m : Machine) (scope f : Value) (operands : List Value) : Action Value :=
  if f.isLanguageFunction then m.invoke scope f operands
  else m.elements scope operands >>= m.call f

theorem Machine.application_of_head {m : Machine} {scope head f : Value} {operands : List Value}
    {s t : Store} (hhead : m.headValue scope head s = .done f t) (hf : f.isCallable) :
    m.application scope head operands s = m.applied scope f operands t := by
  refine (bind_of_done hhead).trans ?_
  unfold applied
  rw [if_pos hf]

theorem Machine.applied_related {R : Congruence} {m m' : Machine} (h : m.Related R m')
    (scope f : Value) (operands : List Value) :
    R.rel (m.applied scope f operands) (m'.applied scope f operands) := by
  unfold applied
  split
  · exact h.invoke scope f operands
  · exact R.bind (elements_related h scope operands) (h.call f)

theorem increasing_applied (scope f : Value) (operands : List Value) :
    Increasing fun n => (machine n).applied scope f operands :=
  .of_related (a := fun m => m.applied scope f operands) fun h =>
    Machine.applied_related h scope f operands

/-- A call of a name applies what the name finds. -/
theorem concludes_call_of_name {r : ScopeRef} {s : Store} {c : Conclusion Value} {name : String}
    {f : Value} (hname : r.get name s = .done f s) (hf : f.isCallable) (head mark : Mark)
    (operands : List Expr) :
    Concludes (eval · (.scope r)
        (.node (.group .call (.leaf .identifier name head :: operands) mark))) s c ↔
      Concludes (fun n => (machine n).applied (.scope r) f (operands.map .node)) s c := by
  refine (concludes_call _ _ _).trans
    (Concludes.shift (increasing_application _ _ _) 0 fun n => ?_)
  have hhead : (machine n).headValue (.scope r) (.node (.leaf .identifier name head)) s =
      .done f s := hname
  exact congrArg Outcome.conclusion? (Machine.application_of_head hhead hf)

/-! ## The first operand -/

section FirstOperand

variable {β : Type} {scope : Value} {s : Store} {c : Conclusion β} {e : Expr}
  {operands : List Value} {f : Nat → List Value → Action β}

theorem Machine.elements_cons_bind (m : Machine) (he : e.kind ≠ .leaf .rest)
    (g : List Value → Action β) :
    m.elements scope (.node e :: operands) >>= g =
      m.eval scope (.node e) >>= fun v =>
        m.elements scope operands >>= fun vs => g (v :: vs) := by
  have hitem : m.itemElements scope (.node e) = m.eval scope (.node e) >>= fun v => pure [v] := by
    unfold itemElements
    rw [Operand.isA_node, pure_bind, if_neg (by simpa using he)]
  have hcons : m.elements scope (.node e :: operands) = m.itemElements scope (.node e) >>= fun vs =>
      m.elements scope operands >>= fun ws => pure (vs ++ ws) := rfl
  rw [hcons, hitem]
  simp only [bind_assoc, pure_bind, List.singleton_append]

theorem increasing_elements_bind (operands : List Value) (hf : ∀ vs, Increasing (f · vs)) :
    Increasing fun n => (machine n).elements scope operands >>= f n :=
  .bind (.of_related fun h => Machine.elements_related h scope operands) hf

/-- What is done with the values of operands can begin with the value of the first one. -/
theorem concludes_elements_cons (he : e.kind ≠ .leaf .rest) (hf : ∀ vs, Increasing (f · vs)) :
    Concludes (fun n => (machine n).elements scope (.node e :: operands) >>= f n) s c ↔
      Conclusion.Then (Concludes (eval · scope (.node e)) s)
        (fun v t => Concludes
          (fun n => (machine n).elements scope operands >>= fun vs => f n (v :: vs)) t) c := by
  have hparts : (fun n => (machine n).elements scope (.node e :: operands) >>= f n) = fun n =>
      eval n scope (.node e) >>= fun v =>
        (machine n).elements scope operands >>= fun vs => f n (v :: vs) :=
    funext fun n => Machine.elements_cons_bind (machine n) he (f n)
  rw [hparts]
  exact Concludes.bind (.eval _ _) fun v => increasing_elements_bind operands fun vs => hf (v :: vs)

/-- A node that stands for a value gives it in one step. -/
theorem concludes_elements_host (v line : Value) (serial : Nat) (hf : ∀ vs, Increasing (f · vs)) :
    Concludes (fun n =>
        (machine n).elements scope (.node (.host v line serial) :: operands) >>= f n) s c ↔
      Concludes (fun n => (machine n).elements scope operands >>= fun vs => f n (v :: vs)) s c := by
  refine (concludes_elements_cons (by simp [Node.kind]) hf).trans (Conclusion.Then.of_value ?_)
  intro c
  exact Concludes.of_conclusion? (.eval _ _) (k := 1) rfl

end FirstOperand

/-- Closures and other functions take the value of the first operand and then the other operands. A
node that stands for the value is as good as the operand. -/
theorem concludes_applied_cons {scope g : Value} {s : Store} {c : Conclusion Value} {e : Expr}
    {operands : List Value} (hg : ∀ form, g ≠ .form form) (he : e.kind ≠ .leaf .rest)
    (line : Value) (serial : Nat) :
    Concludes (fun n => (machine n).applied scope g (.node e :: operands)) s c ↔
      Conclusion.Then (Concludes (eval · scope (.node e)) s)
        (fun v t => Concludes (fun n =>
          (machine n).applied scope g (.node (.host v line serial) :: operands)) t) c := by
  -- Both kinds of functions evaluate their operands first, and a closure has one step less for it.
  obtain ⟨more, f, hf, hsame⟩ : ∃ more, ∃ f : Nat → List Value → Action Value,
      (∀ vs, Increasing (f · vs)) ∧ ∀ n operands, (machine (n + more)).applied scope g operands =
        (machine n).elements scope operands >>= f n := by
    cases g with
    | closure r =>
      exact ⟨1, fun n => (machine n).enterClosure r,
        fun vs => .of_related (a := fun m => m.enterClosure r vs) fun h =>
          Machine.enterClosure_related h r vs,
        fun n operands => (machine n).invokeClosure_eq scope r operands⟩
    | form form => exact absurd rfl (hg form)
    | _ => exact ⟨0, fun n => (machine n).call _, fun vs => .call _ vs, fun _ _ => rfl⟩
  have hparts : ∀ operands t c, Concludes (fun n => (machine n).applied scope g operands) t c ↔
      Concludes (fun n => (machine n).elements scope operands >>= f n) t c := by
    intro operands t c
    refine Concludes.shift (increasing_applied scope g operands) more fun n => ?_
    rw [hsame]
  rw [hparts]
  refine (concludes_elements_cons he hf).trans (Conclusion.Then.congr (fun _ => Iff.rfl) ?_)
  intro v t _
  rw [hparts]
  exact (concludes_elements_host v line serial hf).symm

end Lisplet
