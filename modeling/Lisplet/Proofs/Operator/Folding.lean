import Lisplet.Proofs.Evaluation.Applications
import Lisplet.Proofs.Operator.Renumbering
import Lisplet.Proofs.Sequence.Reducing

/-!
# Operators are left folds

There are three ways to apply an operator to more than two values: the host calls it with all of
them, the host folds it over a sequence, or a script writes calls with two operands inside each
other. All of them are the fold of the operator from the left, and a call with many operands ends
like the call whose first operand is the call with all but the last one.

Main statement: `operator_spec`.
-/

namespace Lisplet

open Lisplet.Action

/-! ## What operators do to the store -/

/-- The second store is the first one with further lists in it, and has given out other numbers. -/
structure Store.MoreLists (s t : Store) : Prop where
  rest : { s with lists := t.lists, nextId := t.nextId } = t
  lists : s.lists.toList <+: t.lists.toList

namespace Store.MoreLists

variable {s t : Store}

instance : IsPreorder Store Store.MoreLists where
  refl s := ⟨rfl, List.prefix_rfl⟩
  trans s t u hst htu := by
    refine ⟨?_, hst.lists.trans htu.lists⟩
    rw [← htu.rest, ← hst.rest]

theorem formBodies (h : s.MoreLists t) : t.formBodies = s.formBodies := by
  rw [← h.rest]

end Store.MoreLists

theorem newId_moves : Moves Store.MoreLists newId := .make fun _ => ⟨rfl, List.prefix_rfl⟩

theorem newList_moves (items : Array Value) : Moves Store.MoreLists (newList items) := by
  refine Moves.bind (.make fun s => ⟨rfl, ?_⟩) fun _ => .ret _
  show s.lists.toList <+: (s.lists.push items).toList
  rw [Array.toList_push]
  exact List.prefix_append _ _

theorem newTuple_moves (items : List Value) : Moves Store.MoreLists (newTuple items) := by
  unfold newTuple
  split
  · exact .ret _
  · exact newId_moves.bind fun _ => .ret _

theorem newBytes_moves (data : List UInt8) : Moves Store.MoreLists (newBytes data) := by
  unfold newBytes
  split
  · exact .ret _
  · exact newId_moves.bind fun _ => .ret _

theorem newFloat_moves (d : Double) : Moves Store.MoreLists (newFloat d) := by
  unfold newFloat
  split
  · exact newId_moves.bind fun _ => .ret _
  · exact .ret _

attribute [grind ←] newId_moves newList_moves newTuple_moves newBytes_moves newFloat_moves

namespace Numeric

@[grind ←]
theorem combine_moves (ints : Int → Int → Int) (doubles : Double → Double → Double)
    (x y : Numeric) : Moves Store.MoreLists (combine ints doubles x y) := by
  unfold combine
  split
  · exact .ret _
  · exact x.toDouble_reads.moves.bind fun _ => y.toDouble_reads.moves.bind fun _ => newFloat_moves _

@[grind ←]
theorem divide_moves (x y : Numeric) : Moves Store.MoreLists (divide x y) := by
  unfold divide
  split
  · split
    · exact .raise _
    · generalize Double.ofRatio _ _ _ = quotient
      cases quotient with
      | fin neg units => exact .ret _
      | inf neg => exact .raise _
      | nan tag => exact .raise _
  · refine x.toDouble_reads.moves.bind fun _ => y.toDouble_reads.moves.bind fun _ => ?_
    split
    · exact .raise _
    · exact newFloat_moves _

end Numeric

namespace Operator

@[grind ←]
theorem repeated_moves (sequence : Value) (count : Int) :
    Moves Store.MoreLists (repeated sequence count) := by
  have hrepetitions : ∀ length, Moves Store.MoreLists (repetitions length count) :=
    fun length => (repetitions_reads length count).moves
  unfold repeated
  grind

theorem sum_moves (a b : Value) : Moves Store.MoreLists (sum a b) := by
  unfold sum
  grind

theorem difference_moves (a b : Value) : Moves Store.MoreLists (difference a b) := by
  unfold difference newSet
  grind

theorem product_moves (a b : Value) : Moves Store.MoreLists (product a b) := by
  unfold product
  grind

theorem quotient_moves (a b : Value) : Moves Store.MoreLists (quotient a b) := by
  unfold quotient
  grind

/-- An operator makes at most new lists. -/
theorem apply_moves (op : Operator) (a b : Value) : Moves Store.MoreLists (op.apply a b) := by
  have hcompare : ∀ c : Comparison,
      Moves Store.MoreLists (do return .bool (← c.holds a b) : Action Value) :=
    fun c => (c.holds_reads a b).moves.bind fun _ => .ret _
  have htruthy : ∀ v w : Value,
      Moves Store.MoreLists (do if ← Action.truthy a then return v else return w) := by
    intro v w
    refine Moves.bind (.gets _) fun truth => ?_
    cases truth <;> exact .ret _
  cases op with
  | add => exact sum_moves a b
  | sub => exact difference_moves a b
  | mul => exact product_moves a b
  | div => exact quotient_moves a b
  | equal | notEqual | coalesce => exact .ret _
  | less => exact hcompare .less
  | greater => exact hcompare .greater
  | atMost => exact hcompare .atMost
  | atLeast => exact hcompare .atLeast
  | both => exact htruthy b a
  | either => exact htruthy a b

theorem foldlM_moves (op : Operator) (x : Value) (xs : List Value) :
    Moves Store.MoreLists (xs.foldlM op.apply x) := by
  induction xs generalizing x with
  | nil => exact .ret x
  | cons v xs ih =>
    rw [List.foldlM_cons]
    exact (op.apply_moves x v).bind ih

end Operator

/-! ## Folds by the host -/

/-- Operands that stand for values are folded as these values. -/
theorem Form.foldOperands_wrap (fuel : Nat) (scope : Value) (op : Operator) (acc : Value)
    (xs : List Value) :
    foldOperands (machine (fuel + 1)) scope op acc (xs.map Machine.wrap) =
      xs.foldlM op.apply acc := by
  induction xs generalizing acc with
  | nil => rfl
  | cons x xs ih =>
    rw [List.foldlM_cons]
    exact bind_congr fun acc => ih acc

section Host

variable {op : Operator} {s t : Store} (hown : s.formBodies.lookup (.operator op) = none)

include hown

/-- Folds agree if their steps do wherever the operator does what it does by itself. -/
theorem Operator.foldlM_agrees {step : Value → Value → Action Value}
    (hstep : ∀ acc acc' v s t, s.formBodies.lookup (.operator op) = none → op.Same acc acc' →
      s.MoreScopes t → (op.apply acc v s).Agrees op.Same (step acc' v t))
    (hst : s.MoreScopes t) {x x' : Value} (hx : op.Same x x') (xs : List Value) :
    (xs.foldlM op.apply x s).Agrees op.Same (xs.foldlM step x' t) := by
  induction xs generalizing s t x x' with
  | nil => exact ⟨hx, hst⟩
  | cons v xs ih =>
    rw [List.foldlM_cons, List.foldlM_cons]
    refine (hstep x x' v s t hown hx hst).bind fun w w' s' t' hdone hw hst' => ih ?_ hst' hw
    have hmoves := op.apply_moves x v s
    rw [hdone] at hmoves
    rw [hmoves.formBodies]
    exact hown

/-- The host calls an operator from a new scope. -/
theorem call_operator (fuel : Nat) (x : Value) (xs : List Value) :
    call (fuel + 3) (.form (.operator op)) (x :: xs) s =
      xs.foldlM op.apply x (s.addScope [] .nil).2 := by
  have hown' : (s.addScope [] .nil).2.formBodies.lookup (.operator op) = none := hown
  have hinvoke : call (fuel + 3) (.form (.operator op)) (x :: xs) s =
      (Form.operator op).run (machine (fuel + 1)) (.scope (s.addScope [] .nil).1)
        ((x :: xs).map Machine.wrap) (s.addScope [] .nil).2 :=
    Machine.invokeForm_own hown' _
  exact hinvoke.trans (congrFun (Form.foldOperands_wrap fuel _ op x xs) _)

/-- The call of an operator with all values at once. -/
theorem call_agrees (fuel : Nat) (x : Value) (xs : List Value) :
    (xs.foldlM op.apply x s).Agrees op.Same
      (call (fuel + 3) (.form (.operator op)) (x :: xs) s) := by
  rw [call_operator hown]
  exact Operator.foldlM_agrees hown
    (fun acc acc' v s t _ hacc hst => Operator.apply_agree hacc v s t hst)
    ((Store.MoreScopes.refl s).addScope .nil) (.inl rfl) xs

/-- The fold of an operator over a sequence, with one call for each step. -/
theorem reduce_agrees (fuel : Nat) {seq x : Value} {xs : List Value}
    (hseq : Action.elements seq s = .done (x :: xs) s) :
    (xs.foldlM op.apply x s).Agrees op.Same
      (SequenceMethod.reduce.call (machine (fuel + 3)) [seq, .form (.operator op)] [] s) := by
  have hreduce : SequenceMethod.reduce.call (machine (fuel + 3)) [seq, .form (.operator op)] [] s =
      SequenceMethod.foldCalls (machine (fuel + 3)) (.form (.operator op)) x xs s :=
    bind_of_done hseq
  rw [hreduce, SequenceMethod.foldCalls_eq]
  -- each step is a call of its own, so that there is one more scope after each of them
  refine Operator.foldlM_agrees hown (fun acc acc' v s t hs hacc hst => ?_) (.refl s) (.inl rfl) xs
  have ht : t.formBodies.lookup (.operator op) = none := hst.formBodies ▸ hs
  show (op.apply acc v s).Agrees op.Same (call (fuel + 3) (.form (.operator op)) [acc', v] t)
  rw [call_operator ht]
  show (op.apply acc v s).Agrees op.Same ((op.apply acc' v >>= pure) _)
  rw [bind_pure]
  exact Operator.apply_agree hacc v s _ (hst.addScope .nil)

end Host

/-! ## Calls in scripts -/

/-- A call of the operator by its name, with operands that stand anywhere in the source. -/
def Operator.callNode (op : Operator) (head mark : Mark) (operands : List Expr) : Expr :=
  .group .call (.leaf .identifier (Form.operatorName op) head :: operands) mark

/-- The expression has this value in the scope, also after operators have made new lists. -/
def Stands (r : ScopeRef) (s : Store) (e : Expr) (v : Value) : Prop :=
  ∃ enough, ∀ fuel ≥ enough, ∀ t, s.MoreLists t → eval fuel (.scope r) (.node e) t = .done v t

/-- The expression applies the operator to the values two by two, from the left: it stands for the
first value, or its call has such an expression for all but the last value as first operand. -/
inductive Operator.LeftNested (op : Operator) (r : ScopeRef) (s : Store) :
    Expr → Value → List Value → Prop where
  | first {e : Expr} {x : Value} (h : Stands r s e x) : LeftNested op r s e x []
  | call {e e' : Expr} {x v : Value} {xs : List Value} (head mark : Mark)
    (h : LeftNested op r s e x xs) (h' : Stands r s e' v) :
    LeftNested op r s (op.callNode head mark [e, e']) x (xs ++ [v])

theorem Form.foldOperands_append (m : Machine) (scope : Value) (op : Operator) (acc last : Value)
    (operands : List Value) :
    foldOperands m scope op acc (operands ++ [last]) =
      foldOperands m scope op acc operands >>= fun acc => m.eval scope last >>= op.apply acc := by
  induction operands generalizing acc with
  | nil =>
    show (m.eval scope last >>= fun v => op.apply acc v >>= pure) = _
    simp only [bind_pure]
    rfl
  | cons operand rest ih =>
    show (m.eval scope operand >>= fun v => op.apply acc v >>= fun acc =>
      foldOperands m scope op acc (rest ++ [last])) = _
    simp only [ih]
    show _ = (m.eval scope operand >>= fun v => op.apply acc v >>= fun acc =>
      foldOperands m scope op acc rest) >>= _
    rw [bind_assoc]
    exact bind_congr fun v => (bind_assoc _ _ _).symm

/-- The last operand is evaluated and applied when all others have been. -/
theorem Form.runOperator_append (m : Machine) (scope : Value) (op : Operator)
    {operands : List Value} (h : operands ≠ []) (last : Value) :
    runOperator m scope op (operands ++ [last]) =
      runOperator m scope op operands >>= fun acc => m.eval scope last >>= op.apply acc := by
  cases operands with
  | nil => exact absurd rfl h
  | cons operand rest =>
    show (m.eval scope operand >>= fun acc => foldOperands m scope op acc (rest ++ [last])) = _
    simp only [foldOperands_append]
    exact (bind_assoc _ _ _).symm

/-- The operands of an operator folded, with so many steps for all but the last one and so many for
the last one. -/
def Operator.foldedWithin (op : Operator) (r : ScopeRef) (operands : List Expr) (last : Expr)
    (few many : Nat) : Action Value :=
  Form.runOperator (machine few) (.scope r) op (operands.map .node) >>= fun acc =>
    eval many (.scope r) (.node last) >>= op.apply acc

theorem Operator.foldedWithin_mono (op : Operator) (r : ScopeRef) (operands : List Expr)
    (last : Expr) (few many more more' : Nat) :
    Approximates (op.foldedWithin r operands last few many)
      (op.foldedWithin r operands last (few + more) (many + more')) := by
  refine Approximates.bind ?_ fun acc => ?_
  · exact Form.runOperator_related (machine_mono (Nat.le_add_right few more)) _ _ _
  · exact Approximates.bind (eval_mono (Nat.le_add_right many more') _ _) fun v => .refl _

section Scripts

variable {op : Operator} {r : ScopeRef} {s : Store}
  (hown : s.formBodies.lookup (.operator op) = none)
  (hname : r.get (Form.operatorName op) s = .done (.form (.operator op)) s)

include hown hname

/-- A call of an operator folds the operands, and an error that leaves it takes a frame along. -/
theorem eval_callNode (fuel : Nat) (head mark : Mark) (operands : List Expr) :
    (eval (fuel + 3) (.scope r) (.node (op.callNode head mark operands)) s).untraced =
      (Form.runOperator (machine fuel) (.scope r) op (operands.map .node) s).untraced := by
  have hrun : (Form.operator op).run (machine fuel) (.scope r) (operands.map .node) s =
      Form.runOperator (machine fuel) (.scope r) op (operands.map .node) s := rfl
  have hget : r.get (Form.operator op).name s = .done (.form (.operator op)) s := hname
  rw [← hrun, ← Form.application_of_get hget hown fuel head]
  exact untraced_framed _ _ s

/-- Calls with two operands inside each other are the fold. -/
theorem comesTo_leftNested {e : Expr} {x : Value} {xs : List Value}
    (h : op.LeftNested r s e x xs) :
    ComesTo (.scope r) (.node e) s (xs.foldlM op.apply x s).untraced := by
  induction h with
  | first h =>
    obtain ⟨enough, hvalue⟩ := h
    refine ⟨enough, fun fuel hfuel => ?_⟩
    rw [hvalue fuel hfuel s (refl_of Store.MoreLists s)]
    rfl
  | @call e e' x v xs head mark _ h' ih =>
    obtain ⟨enough, hfold⟩ := ih
    obtain ⟨enough', hvalue⟩ := h'
    refine ⟨max enough enough' + 3, fun fuel hfuel => ?_⟩
    obtain ⟨fuel, rfl⟩ : ∃ k, fuel = k + 3 := ⟨fuel - 3, by omega⟩
    rw [eval_callNode hown hname, List.foldlM_append]
    refine untraced_bind (hfold fuel (by omega)) fun acc t hdone => ?_
    have hmoves := op.foldlM_moves x xs s
    rw [hdone] at hmoves
    have heval : (machine fuel).eval (.scope r) (.node e') t = .done v t :=
      hvalue fuel (by omega) t hmoves
    exact congrArg Outcome.untraced (bind_of_done heval)

/-- The call with all operands at once. -/
theorem eval_flat (fuel : Nat) {operands : List Expr} (h : operands ≠ []) (last : Expr)
    (head mark : Mark) :
    (eval (fuel + 3) (.scope r) (.node (op.callNode head mark (operands ++ [last]))) s).untraced =
      (op.foldedWithin r operands last fuel fuel s).untraced := by
  have hne : operands.map Value.node ≠ [] := fun hnil => h (List.map_eq_nil_iff.mp hnil)
  rw [eval_callNode hown hname, List.map_append]
  exact congrArg Outcome.untraced
    (congrFun (Form.runOperator_append (machine fuel) (.scope r) op hne (.node last)) s)

/-- The call whose first operand is the call with all operands but the last one. -/
theorem eval_nested (fuel : Nat) (operands : List Expr) (last : Expr)
    (head mark head' mark' : Mark) :
    (eval (fuel + 6) (.scope r)
      (.node (op.callNode head mark [op.callNode head' mark' operands, last])) s).untraced =
        (op.foldedWithin r operands last fuel (fuel + 3) s).untraced := by
  rw [eval_callNode hown hname]
  refine untraced_bind (eval_callNode hown hname fuel head' mark' operands) fun acc t _ => ?_
  show ((eval (fuel + 3) (.scope r) (.node last) >>= fun v => op.apply acc v >>= pure) t).untraced
    = _
  simp only [bind_pure]

/-- A call with many operands ends like the one whose first operand is the call with all of them but
the last one. -/
theorem comesTo_callNode_iff {operands : List Expr} (h : operands ≠ []) (last : Expr)
    (head mark head' mark' head'' mark'' : Mark) (o : Outcome Value) :
    ComesTo (.scope r) (.node (op.callNode head mark (operands ++ [last]))) s o ↔
      ComesTo (.scope r)
        (.node (op.callNode head' mark' [op.callNode head'' mark'' operands, last])) s o := by
  have hflat := fun fuel => eval_flat hown hname fuel h last head mark
  have hnested := fun fuel => eval_nested hown hname fuel operands last head' mark' head'' mark''
  generalize op.callNode head mark (operands ++ [last]) = flat at hflat ⊢
  generalize op.callNode head' mark' [op.callNode head'' mark'' operands, last] = nested
    at hnested ⊢
  have hmono := fun few many more more' =>
    (op.foldedWithin_mono r operands last few many more more' s).untraced
  -- The operands inside have three steps less than the last one, so that each of the two calls lies
  -- between the other one with few and with more steps.
  have hup : ∀ fuel, (eval fuel (.scope r) (.node flat) s).untraced.Approximates
      (eval (fuel + 6) (.scope r) (.node nested) s).untraced := by
    intro fuel
    have hmore := (eval_mono (Nat.le_add_right fuel 3) (.scope r) (.node flat) s).untraced
    rw [hflat] at hmore
    rw [hnested]
    exact hmore.trans (hmono fuel fuel 0 3)
  have hdown : ∀ fuel, (eval fuel (.scope r) (.node nested) s).untraced.Approximates
      (eval (fuel + 6) (.scope r) (.node flat) s).untraced := by
    intro fuel
    have hmore := (eval_mono (Nat.le_add_right fuel 6) (.scope r) (.node nested) s).untraced
    rw [hnested] at hmore
    rw [hflat (fuel + 3)]
    exact hmore.trans (hmono fuel (fuel + 3) 3 0)
  exact ⟨ComesTo.of_approximates hup hdown, ComesTo.of_approximates hdown hup⟩

end Scripts

/-- A node that stands for a value. -/
theorem Stands.host (r : ScopeRef) (s : Store) (v line : Value) (serial : Nat) :
    Stands r s (.host v line serial) v := by
  refine ⟨1, fun fuel hfuel t _ => ?_⟩
  obtain ⟨fuel, rfl⟩ : ∃ k, fuel = k + 1 := ⟨fuel - 1, by omega⟩
  rfl

/-- A name, unless it depends on lists that are not there yet. -/
theorem Stands.name {r : ScopeRef} {s : Store} {name : String} {v : Value} (mark : Mark)
    (h : ∀ t, s.MoreLists t → r.get name t = .done v t) :
    Stands r s (.leaf .identifier name mark) v := by
  refine ⟨1, fun fuel hfuel t hst => ?_⟩
  obtain ⟨fuel, rfl⟩ : ∃ k, fuel = k + 1 := ⟨fuel - 1, by omega⟩
  exact h t hst

/-! ## All ways to apply an operator -/

/-- An operator that does what it does by itself is one left fold. The fold of its values is what
the host gets from a call with all of them and from a fold over a sequence of them, and what a script
gets from calls with two operands inside each other; new objects may have other numbers, and an
error has frames only where it has left a call. In a scope where the name means the operator, a call
with many operands ends exactly like the call whose first operand is the call with all of them but
the last one, whatever the operands are. -/
theorem operator_spec (op : Operator) (s : Store)
    (hown : s.formBodies.lookup (.operator op) = none) :
    (∀ x xs fuel,
      (xs.foldlM op.apply x s).Agrees Value.Alike
          (call (fuel + 3) (.form (.operator op)) (x :: xs) s) ∧
        ∀ seq, Action.elements seq s = .done (x :: xs) s →
          (xs.foldlM op.apply x s).Agrees Value.Alike
            (SequenceMethod.reduce.call (machine (fuel + 3)) [seq, .form (.operator op)] [] s)) ∧
    ∀ r : ScopeRef, r.get (Form.operatorName op) s = .done (.form (.operator op)) s →
      (∀ e x xs, op.LeftNested r s e x xs →
        ComesTo (.scope r) (.node e) s (xs.foldlM op.apply x s).untraced) ∧
      ∀ operands, operands ≠ [] → ∀ last head mark head' mark' head'' mark'' o,
        (ComesTo (.scope r) (.node (op.callNode head mark (operands ++ [last]))) s o ↔
          ComesTo (.scope r)
            (.node (op.callNode head' mark' [op.callNode head'' mark'' operands, last])) s o) := by
  refine ⟨fun x xs fuel => ⟨?_, fun seq hseq => ?_⟩, fun r hname => ⟨fun e x xs h => ?_, ?_⟩⟩
  · exact (call_agrees hown fuel x xs).mono fun _ _ => Operator.Same.alike
  · exact (reduce_agrees hown fuel hseq).mono fun _ _ => Operator.Same.alike
  · exact comesTo_leftNested hown hname h
  · intro operands h last head mark head' mark' head'' mark'' o
    exact comesTo_callNode_iff hown hname h last head mark head' mark' head'' mark'' o

/-- A scope with addition and a variable, a list, and a function that makes lists. -/
def operatorStore : Store :=
  { Store.empty [] with
    lists := #[#[.int 1, .int 2, .int 3]]
    dicts := #[.ofTexts [("+", .form (.operator .add)), ("x", .int 1)]]
    scopes := #[⟨.dict ⟨0⟩, .nil, .nil⟩]
    functions := #[⟨.host .list, []⟩] }

/-- A number as it stands in a source. -/
def numberNode (i : Int) : Expr := .host (.int i) (.int 1) 0

theorem operator_spec_sum :
    (Outcome.done (.int 6) operatorStore).Agrees Value.Alike
        (call 3 (.form (.operator .add)) [.int 1, .int 2, .int 3] operatorStore) ∧
      (Outcome.done (.int 6) operatorStore).Agrees Value.Alike
        (SequenceMethod.reduce.call (machine 3) [.list ⟨0⟩, .form (.operator .add)] []
          operatorStore) ∧
      ComesTo (.scope ⟨0⟩) (.node (Operator.add.callNode default default
          [Operator.add.callNode default default [.leaf .identifier "x" default, numberNode 2],
            numberNode 3])) operatorStore (.done (.int 6) operatorStore) ∧
      ComesTo (.scope ⟨0⟩) (.node (Operator.add.callNode default default
          [.leaf .identifier "x" default, numberNode 2, numberNode 3])) operatorStore
            (.done (.int 6) operatorStore) := by
  obtain ⟨hhost, hscripts⟩ := operator_spec .add operatorStore rfl
  obtain ⟨hcall, hreduce⟩ := hhost (.int 1) [.int 2, .int 3] 0
  obtain ⟨hfold, hcomes⟩ := hscripts ⟨0⟩ rfl
  have hx : Stands ⟨0⟩ operatorStore (.leaf .identifier "x" default) (.int 1) := by
    refine .name default fun t ht => ?_
    rw [← ht.rest]
    rfl
  have hnested := hfold _ _ _ ((Operator.LeftNested.first hx).call default default
    (.host ⟨0⟩ operatorStore (.int 2) (.int 1) 0) |>.call default default
      (.host ⟨0⟩ operatorStore (.int 3) (.int 1) 0))
  exact ⟨hcall, hreduce (.list ⟨0⟩) rfl, hnested,
    (hcomes [.leaf .identifier "x" default, numberNode 2] (List.cons_ne_nil _ _) (numberNode 3)
      default default default default default default _).mpr hnested⟩

/-- Where a script has given the operator something else to do, which makes a list of the scope and
the operands, a call with three operands does not end like the call inside a call. -/
theorem operator_replaced :
    ∃ t u u', Property.set (.form (.operator .add)) (.str "fn") (.function ⟨.plain, 0⟩)
        operatorStore = .done () t ∧
      ScopeRef.get ⟨0⟩ (Form.operatorName .add) t = .done (.form (.operator .add)) t ∧
      ComesTo (.scope ⟨0⟩) (.node (Operator.add.callNode default default
        [numberNode 1, numberNode 2, numberNode 3])) t (.done (.list ⟨1⟩) u) ∧
      ComesTo (.scope ⟨0⟩) (.node (Operator.add.callNode default default
        [Operator.add.callNode default default [numberNode 1, numberNode 2], numberNode 3])) t
          (.done (.list ⟨1⟩) u') ∧
      (u.list ⟨1⟩).size = 4 ∧ (u'.list ⟨1⟩).size = 3 := by
  refine ⟨_, _, _, rfl, rfl, .of_eval 6 rfl ?_, .of_eval 6 rfl ?_, rfl, rfl⟩
  · exact nofun
  · exact nofun

end Lisplet
