import Lisplet.Proofs.Evaluation.Chains
import Lisplet.Proofs.Operator.Folding

/-!
# Choices

`cond` evaluates all its conditions and results and then takes the value of the result after the
first condition that is true. Calls of `if` inside each other evaluate no more than they have to. As
long as evaluating a condition or a result has no effect on the others, both come to the same value,
which is void where no condition is true or the one that is has no result.

Main statement: `cond_spec`.
-/

namespace Lisplet

open Lisplet.Action

/-! ## Values in any of the stores that are reached -/

section Gives

variable (R : Store → Store → Prop) (r : ScopeRef)

/-- Evaluating an operand gives a value of which something holds, in a store that `R` leads to. -/
def Gives (P : Value → Store → Prop) (operand : Value) (s : Store) : Prop :=
  ∃ v t, Concludes (eval · (.scope r) operand) s (.value v t) ∧ R s t ∧ P v t

/-- Wherever `R` leads, evaluating the node gives a value of which something holds, and it still
holds wherever `R` leads from there. -/
structure Steady (s : Store) (P : Value → Store → Prop) (e : Expr) : Prop where
  gives : ∀ t, R s t → Gives R r P (.node e) t
  lasting : ∀ v t u, P v t → R t u → P v u

/-- Wherever `R` leads, the name of the form finds the form, and looking it up leads on along `R`.
The form does what it does by itself. -/
structure Form.CoreAlong (form : Form) (s : Store) : Prop where
  found : ∀ t, R s t → ∃ u, r.get form.name t = .done (.form form) u ∧ R t u
  own : ∀ t, R s t → t.formBodies.lookup form = none

/-- Where looking the form up changes nothing, it is found wherever nothing has changed. -/
theorem Form.Core.along {r : ScopeRef} {form : Form} {s : Store} (h : form.Core r s) :
    form.CoreAlong Eq r s :=
  ⟨fun t ht => ⟨t, ht ▸ h.found, rfl⟩, fun _ ht => ht ▸ h.own⟩

end Gives

/-! ## Clauses -/

/-- The result after the first true one of the conditions, which stand at every other place. -/
def chosen (truth : Expr → Bool) : List Expr → Option Expr
  | condition :: result :: rest => if truth condition then some result else chosen truth rest
  | _ => none

/-- Calls of `if` inside each other, one for each condition with its result. The last condition may
have none. -/
inductive NestedIf : List Expr → Expr → Prop where
  | last (head mark : Mark) (condition : Expr) :
    NestedIf [condition] (Form.choose.callNode head mark [condition])
  | pair (head mark : Mark) (condition result : Expr) :
    NestedIf [condition, result] (Form.choose.callNode head mark [condition, result])
  | more {rest : List Expr} {nested : Expr} (head mark : Mark) (condition result : Expr)
    (h : NestedIf rest nested) : NestedIf (condition :: result :: rest)
      (Form.choose.callNode head mark [condition, result, nested])

/-- The value is as that of the chosen result should be. If there is none, it is void. -/
def Fits (like : Expr → Value → Store → Prop) (choice : Option Expr) (v : Value) (t : Store) :
    Prop :=
  match choice with
  | some e => like e v t
  | none => v = .undefined

variable {R : Store → Store → Prop} {r : ScopeRef} {s t : Store}
  {like : Expr → Value → Store → Prop} {truth : Expr → Bool} {clauses : List Expr}

/-- The values of conditions and results are walked through in pairs, like the nodes. -/
theorem firstTrue_fits {clauses : List Expr} {vs : List Value}
    (h : List.Forall₂ (like · · t) clauses vs)
    (htruth : ∀ e ∈ clauses, ∀ v, like e v t → t.truthy v = truth e) :
    Fits like (chosen truth clauses) (Form.firstTrue t vs) t := by
  match clauses, vs, h with
  | [], _, .nil => rfl
  | [_], _, .cons _ .nil => rfl
  | condition :: result :: rest, v :: w :: vs, .cons hv (.cons hw hrest) =>
    have hcondition : t.truthy v = truth condition := htruth condition (by simp) v hv
    rw [Form.firstTrue, hcondition, chosen]
    split
    · exact hw
    · exact firstTrue_fits hrest fun e he => htruth e (by simp [he])

variable [IsPreorder Store R]

/-- The values of steady nodes one after the other. -/
theorem concludes_elements_steady (hplain : ∀ e ∈ clauses, e.kind ≠ .leaf .rest)
    (hsteady : ∀ e ∈ clauses, Steady R r s (like e) e) (ht : R s t) :
    ∃ vs u, Concludes (fun n => (machine n).elements (.scope r) (clauses.map .node)) t
      (.value vs u) ∧ R t u ∧ List.Forall₂ (like · · u) clauses vs := by
  induction clauses generalizing t with
  | nil => exact ⟨[], t, ⟨0, rfl⟩, refl_of R t, .nil⟩
  | cons e rest ih =>
    obtain ⟨he, hplain⟩ := List.forall_mem_cons.mp hplain
    obtain ⟨hfirst, hsteady⟩ := List.forall_mem_cons.mp hsteady
    obtain ⟨v, u, hv, hu, hlike⟩ := hfirst.gives t ht
    obtain ⟨vs, w, hvs, hw, hall⟩ := ih hplain hsteady (trans_of R ht hu)
    refine ⟨v :: vs, w, ?_, trans_of R hu hw, .cons (hfirst.lasting v u w hlike hw) hall⟩
    have hrest := Concludes.bind_value (f := fun _ vs => pure (v :: vs))
      (.of_related fun h => Machine.elements_related h _ _) (fun vs => .const _) hvs ⟨0, rfl⟩
    have hall : Concludes (fun n =>
        (machine n).elements (.scope r) (.node e :: rest.map .node) >>= fun vs => pure vs) t
          (.value (v :: vs) w) :=
      (concludes_elements_cons (f := fun _ vs => pure vs) he fun vs => .const _).mpr
        (.inl ⟨v, u, hv, hrest⟩)
    simp only [bind_pure] at hall
    exact hall

/-- The form evaluates all of the nodes and then takes the value of the chosen result. -/
theorem gives_cond (hcond : Form.cond.CoreAlong R r s)
    (hplain : ∀ e ∈ clauses, e.kind ≠ .leaf .rest)
    (hsteady : ∀ e ∈ clauses, Steady R r s (like e) e)
    (htruth : ∀ e ∈ clauses, ∀ v t, like e v t → t.truthy v = truth e) (head mark : Mark) :
    Gives R r (Fits like (chosen truth clauses)) (.node (Form.cond.callNode head mark clauses))
      s := by
  obtain ⟨t, hget, ht⟩ := hcond.found s (refl_of R s)
  obtain ⟨vs, u, hvs, hu, hall⟩ := concludes_elements_steady hplain hsteady ht
  refine ⟨Form.firstTrue u vs, u, ?_, trans_of R ht hu,
    firstTrue_fits hall fun e he v => htruth e he v u⟩
  rw [Form.concludes_callNode_of_get hget (hcond.own t ht)]
  have hrun : (fun n => Form.cond.run (machine n) (.scope r) (clauses.map .node)) = fun n =>
      (machine n).elements (.scope r) (clauses.map .node) >>= fun vs =>
        gets (Form.firstTrue · vs) := by
    funext n
    unfold Form.run
    rw [Signature.check_variadic rfl (by simp [Form.signature]), pure_bind]
    rfl
  rw [hrun]
  exact Concludes.bind_value (f := fun _ vs => gets (Form.firstTrue · vs))
    (.of_related fun h => Machine.elements_related h _ _) (fun vs => .const _) hvs ⟨0, rfl⟩

/-! ## Calls inside each other -/

/-- The condition is followed by the branch for its truth, which may be missing. -/
theorem run_choose (m : Machine) (scope : Value) (condition : Expr) {branches : List Expr}
    (h : branches.length ≤ 2) :
    Form.choose.run m scope (.node condition :: branches.map .node) =
      m.eval scope (.node condition) >>= fun v => truthy v >>= fun b =>
        m.eval scope (Form.operand (branches.map .node) (if b then 0 else 1)) := by
  have hcheck : Form.choose.signature.check
      ((Value.node condition :: branches.map .node).length + 1) = pure () := by
    match branches, h with
    | [], _ | [_], _ | [_, _], _ => rfl
  unfold Form.run
  rw [hcheck, pure_bind]
  refine bind_congr fun v => bind_congr fun b => ?_
  cases b with
  | true => rfl
  | false => rfl

/-- A missing branch is void. -/
theorem gives_nil : Gives R r (fun v _ => v = .undefined) .nil s :=
  ⟨.undefined, s, ⟨1, rfl⟩, refl_of R s, rfl⟩

/-- A call of `if` gives what the branch for the truth of its condition gives. -/
theorem gives_choose {condition : Expr} {branches : List Expr} {P Q : Value → Store → Prop}
    {truth : Bool} (hif : Form.choose.CoreAlong R r s) (hcondition : Steady R r s P condition)
    (htruth : ∀ v t, P v t → t.truthy v = truth) (hbranches : branches.length ≤ 2)
    (hbranch : ∀ t, R s t →
      Gives R r Q (Form.operand (branches.map .node) (if truth then 0 else 1)) t)
    (head mark : Mark) (ht : R s t) :
    Gives R r Q (.node (Form.choose.callNode head mark (condition :: branches))) t := by
  obtain ⟨u, hget, hu⟩ := hif.found t ht
  have hsu := trans_of R ht hu
  obtain ⟨v, w, hv, hw, hP⟩ := hcondition.gives u hsu
  obtain ⟨x, y, hx, hy, hQ⟩ := hbranch w (trans_of R hsu hw)
  refine ⟨x, y, ?_, trans_of R hu (trans_of R hw hy), hQ⟩
  rw [Form.concludes_callNode_of_get hget (hif.own u hsu)]
  have hrun : (fun n => Form.choose.run (machine n) (.scope r)
      ((condition :: branches).map .node)) = fun n => eval n (.scope r) (.node condition) >>=
        fun v => truthy v >>= fun b =>
          eval n (.scope r) (Form.operand (branches.map .node) (if b then 0 else 1)) :=
    funext fun n => run_choose (machine n) _ _ hbranches
  have htruthy : truthy v w = .done truth w := congrArg (Outcome.done · w) (htruth v w hP)
  rw [hrun]
  refine Concludes.bind_value (.eval _ _) (fun v => .bind (.const _) fun b => .eval _ _) hv ?_
  exact Concludes.bind_value (.const _) (fun b => .eval _ _)
    ⟨0, Outcome.conclusion?_eq_value.mpr htruthy⟩ hx

/-- Calls inside each other give the value of the chosen result. -/
theorem NestedIf.gives {nested : Expr} (h : NestedIf clauses nested)
    (hif : Form.choose.CoreAlong R r s) (hsteady : ∀ e ∈ clauses, Steady R r s (like e) e)
    (htruth : ∀ e ∈ clauses, ∀ v t, like e v t → t.truthy v = truth e) (ht : R s t) :
    Gives R r (Fits like (chosen truth clauses)) (.node nested) t := by
  induction h generalizing t with
  | last head mark condition =>
    refine gives_choose hif (hsteady condition (by simp)) (htruth condition (by simp)) (by simp)
      (fun u _ => ?_) head mark ht
    cases truth condition <;> exact gives_nil
  | pair head mark condition result =>
    refine gives_choose hif (hsteady condition (by simp)) (htruth condition (by simp)) (by simp)
      (fun u hu => ?_) head mark ht
    rw [chosen]
    cases truth condition with
    | true => exact (hsteady result (by simp)).gives u hu
    | false => exact gives_nil
  | more head mark condition result h ih =>
    refine gives_choose hif (hsteady condition (by simp)) (htruth condition (by simp)) (by simp)
      (fun u hu => ?_) head mark ht
    rw [chosen]
    cases truth condition with
    | true => exact (hsteady result (by simp)).gives u hu
    | false =>
      exact ih (fun e he => hsteady e (by simp [he])) (fun e he => htruth e (by simp [he])) hu

/-! ## Agreement -/

/-- `cond` agrees with calls of `if` inside each other on conditions and results that contain no
spread. If each of them can be evaluated without changing the store, both give the value of the
result after the first condition that is true, and void if there is none; and so they do if
evaluating only has effects that do not matter to the others, such as that it makes new objects. -/
theorem cond_spec (r : ScopeRef) (s : Store) (clauses : List Expr)
    (hplain : ∀ e ∈ clauses, e.kind ≠ .leaf .rest) :
    (∀ value : Expr → Value, Form.cond.Core r s → Form.choose.Core r s →
      (∀ e ∈ clauses, Concludes (eval · (.scope r) (.node e)) s (.value (value e) s)) →
      ∃ v, v = ((chosen (fun e => s.truthy (value e)) clauses).map value).getD .undefined ∧
        (∀ head mark, Concludes (eval · (.scope r)
          (.node (Form.cond.callNode head mark clauses))) s (.value v s)) ∧
        ∀ nested, NestedIf clauses nested →
          Concludes (eval · (.scope r) (.node nested)) s (.value v s)) ∧
    ∀ (R : Store → Store → Prop) [IsPreorder Store R] (like : Expr → Value → Store → Prop)
      (truth : Expr → Bool), Form.cond.CoreAlong R r s → Form.choose.CoreAlong R r s →
      (∀ e ∈ clauses, Steady R r s (like e) e) →
      (∀ e ∈ clauses, ∀ v t, like e v t → t.truthy v = truth e) →
      (∀ head mark, Gives R r (Fits like (chosen truth clauses))
        (.node (Form.cond.callNode head mark clauses)) s) ∧
      ∀ nested, NestedIf clauses nested →
        Gives R r (Fits like (chosen truth clauses)) (.node nested) s := by
  refine ⟨fun value hcond hif hvalue => ?_, fun R _ like truth hcond hif hsteady htruth => ?_⟩
  · let like : Expr → Value → Store → Prop := fun e v t => v = value e ∧ t = s
    have hsteady : ∀ e ∈ clauses, Steady Eq r s (like e) e := fun e he =>
      ⟨fun t ht => ⟨value e, s, ht ▸ hvalue e he, ht.symm, rfl, rfl⟩, fun v t u hv ht => ht ▸ hv⟩
    have htruth : ∀ e ∈ clauses, ∀ v t, like e v t → t.truthy v = s.truthy (value e) := by
      rintro e - v t ⟨rfl, rfl⟩
      rfl
    have hgives : ∀ {operand : Value} {choice : Option Expr},
        Gives Eq r (Fits like choice) operand s → Concludes (eval · (.scope r) operand) s
          (.value ((choice.map value).getD .undefined) s) := by
      rintro operand choice ⟨v, t, hv, rfl, hfits⟩
      cases choice with
      | none => exact hfits ▸ hv
      | some e =>
        obtain ⟨rfl, -⟩ : v = value e ∧ s = s := hfits
        exact hv
    exact ⟨_, rfl, fun head mark => hgives (gives_cond hcond.along hplain hsteady htruth head mark),
      fun nested h => hgives (h.gives hif.along hsteady htruth rfl)⟩
  · exact ⟨fun head mark => gives_cond hcond hplain hsteady htruth head mark,
      fun nested h => h.gives hif hsteady htruth (refl_of R s)⟩

/-- A scope with both forms, an empty list and a void variable. -/
def choiceStore : Store :=
  { Store.empty [] with
    lists := #[#[]]
    dicts := #[.ofTexts [("cond", .form .cond), ("if", .form .choose), ("xs", .list ⟨0⟩),
      ("gap", .undefined)]]
    scopes := #[⟨.dict ⟨0⟩, .nil, .nil⟩]
    functions := #[⟨.host .list, []⟩] }

/-- An identifier as it stands in a source. -/
def nameNode (name : String) : Expr := .leaf .identifier name default

/-- A key as it stands in a source. -/
def keyNode (name : String) : Expr := .leaf .key name default

/-- An array literal without elements as it stands in a source. -/
def emptyArrayNode : Expr := .group .array [] default

/-- Conditions that are not true, each with a result, and a key. -/
def sampleClauses : List Expr :=
  [nameNode "xs", textNode "a", nameNode "gap", textNode "b", keyNode "else", textNode "c"]

/-- The value of each of the nodes in the scope. -/
def sampleValue : Expr → Value
  | .leaf .identifier "xs" _ => .list ⟨0⟩
  | .leaf .string text _ => .str text
  | .leaf .key name mark => .node (.leaf .key name mark)
  | _ => .undefined

/-- A literal gives a list without elements, and other nodes stand for themselves. -/
def sampleLike : Expr → Value → Store → Prop
  | .group _ _ _, v, t => ∃ l : ListRef, v = .list l ∧ t.lists.toList[l.index]? = some #[]
  | e, v, _ => v = sampleValue e

/-- A literal without elements is not true. -/
def sampleTruth : Expr → Bool
  | .group _ _ _ => false
  | e => (Store.empty []).truthy (sampleValue e)

theorem steady_emptyArray (r : ScopeRef) (s : Store) :
    Steady Store.MoreLists r s (sampleLike emptyArrayNode) emptyArrayNode := by
  refine ⟨fun t _ => ⟨.list ⟨t.lists.size⟩, (t.addList #[]).2, ⟨2, rfl⟩, ⟨rfl, ?_⟩, _, rfl, ?_⟩, ?_⟩
  · simp [Store.addList]
  · simp [Store.addList]
  · rintro v t u ⟨l, rfl, hl⟩ hu
    obtain ⟨more, hmore⟩ := hu.lists
    have hlt : l.index < t.lists.toList.length := (List.getElem?_eq_some_iff.mp hl).1
    exact ⟨l, rfl, hmore ▸ (List.getElem?_append_left hlt).trans hl⟩

theorem steady_text (r : ScopeRef) (s : Store) (text : String) :
    Steady Store.MoreLists r s (sampleLike (textNode text)) (textNode text) :=
  ⟨fun t _ => ⟨_, t, ⟨2, rfl⟩, refl_of Store.MoreLists t, rfl⟩, fun _ _ _ h _ => h⟩

theorem steady_key (r : ScopeRef) (s : Store) (name : String) :
    Steady Store.MoreLists r s (sampleLike (keyNode name)) (keyNode name) :=
  ⟨fun t _ => ⟨_, t, ⟨2, rfl⟩, refl_of Store.MoreLists t, rfl⟩, fun _ _ _ h _ => h⟩

/-- An empty list and void are not true, a key is. A condition may make a list, and so may the
result, of which there are then two that are alike. -/
theorem cond_spec_else :
    (Concludes (eval · (.scope ⟨0⟩) (.node (callNode "cond" sampleClauses))) choiceStore
        (.value (.str "c") choiceStore) ∧
      Concludes (eval · (.scope ⟨0⟩) (.node (callNode "if" [nameNode "xs", textNode "a",
        callNode "if" [nameNode "gap", textNode "b",
          callNode "if" [keyNode "else", textNode "c"]]]))) choiceStore
            (.value (.str "c") choiceStore)) ∧
    Gives Store.MoreLists ⟨0⟩ (sampleLike emptyArrayNode) (.node (callNode "cond"
      [emptyArrayNode, textNode "a", keyNode "else", emptyArrayNode, textNode "b"])) choiceStore ∧
    Gives Store.MoreLists ⟨0⟩ (sampleLike emptyArrayNode) (.node (callNode "if" [emptyArrayNode,
      textNode "a", callNode "if" [keyNode "else", emptyArrayNode, callNode "if" [textNode "b"]]]))
        choiceStore := by
  constructor
  · obtain ⟨hsame, -⟩ := cond_spec ⟨0⟩ choiceStore sampleClauses (by decide)
    have hvalues : ∀ e ∈ sampleClauses, Concludes (eval · (.scope ⟨0⟩) (.node e)) choiceStore
        (.value (sampleValue e) choiceStore) := by
      simp only [sampleClauses, List.forall_mem_cons]
      exact ⟨⟨2, rfl⟩, ⟨2, rfl⟩, ⟨2, rfl⟩, ⟨2, rfl⟩, ⟨2, rfl⟩, ⟨2, rfl⟩, nofun⟩
    obtain ⟨v, rfl, hcond, hif⟩ := hsame sampleValue ⟨rfl, rfl⟩ ⟨rfl, rfl⟩ hvalues
    exact ⟨hcond default default, hif _ (.more _ _ _ _ (.more _ _ _ _ (.pair _ _ _ _)))⟩
  · obtain ⟨-, halike⟩ := cond_spec ⟨0⟩ choiceStore
      [emptyArrayNode, textNode "a", keyNode "else", emptyArrayNode, textNode "b"] (by decide)
    have hsteady : ∀ e ∈ [emptyArrayNode, textNode "a", keyNode "else", emptyArrayNode,
        textNode "b"], Steady Store.MoreLists ⟨0⟩ choiceStore (sampleLike e) e := by
      simp only [List.forall_mem_cons]
      exact ⟨steady_emptyArray _ _, steady_text _ _ _, steady_key _ _ _, steady_emptyArray _ _,
        steady_text _ _ _, nofun⟩
    have htruth : ∀ e ∈ [emptyArrayNode, textNode "a", keyNode "else", emptyArrayNode,
        textNode "b"], ∀ v t, sampleLike e v t → t.truthy v = sampleTruth e := by
      have hempty : ∀ v t, sampleLike emptyArrayNode v t → t.truthy v = false := by
        rintro v t ⟨l, rfl, hl⟩
        have hlist : t.list l = #[] := by
          rw [Store.list, Array.getD_eq_getD_getElem?, ← Array.getElem?_toList, hl]
          rfl
        simp [Store.truthy, hlist]
      simp only [List.forall_mem_cons]
      refine ⟨hempty, ?_, ?_, hempty, ?_, nofun⟩
      all_goals
        rintro v t rfl
        rfl
    have hfound : ∀ form : Form, form = .cond ∨ form = .choose →
        form.CoreAlong Store.MoreLists ⟨0⟩ choiceStore := by
      rintro form (rfl | rfl)
      all_goals exact ⟨fun t ht => ⟨t, ht.rest ▸ rfl, refl_of Store.MoreLists t⟩,
        fun t ht => ht.formBodies ▸ rfl⟩
    obtain ⟨hcond, hif⟩ := halike Store.MoreLists sampleLike sampleTruth (hfound _ (.inl rfl))
      (hfound _ (.inr rfl)) hsteady htruth
    exact ⟨hcond default default, hif _ (.more _ _ _ _ (.more _ _ _ _ (.last _ _ _)))⟩

/-- The names find the forms and the clause can be evaluated without changing the store, but the
forms do not give the same value. -/
structure FormsDiffer (t : Store) : Prop where
  cond : ScopeRef.get ⟨0⟩ "cond" t = .done (.form .cond) t
  choose : ScopeRef.get ⟨0⟩ "if" t = .done (.form .choose) t
  clause : ∀ e ∈ [keyNode "else", textNode "a"],
    Concludes (eval · (.scope ⟨0⟩) (.node e)) t (.value (sampleValue e) t)
  differ : ∃ v u, Concludes (eval · (.scope ⟨0⟩)
      (.node (callNode "cond" [keyNode "else", textNode "a"]))) t (.value v u) ∧
    ∀ u, ¬ Concludes (eval · (.scope ⟨0⟩)
      (.node (callNode "if" [keyNode "else", textNode "a"]))) t (.value v u)

/-- The forms differ where a script has given one of them something else to do, which makes a list
of the scope and the operands. -/
theorem cond_disagrees :
    (∃ t, Property.set (.form .cond) (.str "fn") (.function ⟨.plain, 0⟩) choiceStore =
      .done () t ∧ FormsDiffer t) ∧
    ∃ t, Property.set (.form .choose) (.str "fn") (.function ⟨.plain, 0⟩) choiceStore =
      .done () t ∧ FormsDiffer t := by
  have hclause : ∀ form : Form, ∀ e ∈ [keyNode "else", textNode "a"],
      Concludes (eval · (.scope ⟨0⟩) (.node e)) (choiceStore.listing form)
        (.value (sampleValue e) (choiceStore.listing form)) := by
    intro form
    simp only [List.forall_mem_cons]
    exact ⟨⟨2, rfl⟩, ⟨2, rfl⟩, nofun⟩
  refine ⟨⟨_, rfl, rfl, rfl, hclause .cond, _, _, ⟨8, rfl⟩, fun u h => ?_⟩,
    ⟨_, rfl, rfl, rfl, hclause .choose, _, _, ⟨8, rfl⟩, fun u h => ?_⟩⟩
  · cases Concludes.unique (.eval _ _) h ⟨8, rfl⟩
  · cases Concludes.unique (.eval _ _) h ⟨8, rfl⟩

end Lisplet
