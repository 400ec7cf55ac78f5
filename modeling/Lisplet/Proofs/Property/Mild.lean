import Lisplet.Proofs.Property.Methods
import Lisplet.Proofs.Store.Running

/-!
# Mild actions

An action is mild if the denylist has no say in it: it keeps the denylist as it is and never fails
because an access is forbidden. Reading attributes, elements and positions and writing
attributes and elements is mild; what is not mild in the access to a property are the guards, and
the methods of texts that are withheld from scripts.
-/

namespace Lisplet

/-- The denylist has not changed. -/
def Store.SameDenylist (s t : Store) : Prop := t.denylist = s.denylist

instance : IsPreorder Store Store.SameDenylist where
  refl _ := rfl
  trans _ _ _ h h' := h'.trans h

namespace Action

variable {α : Type}

/-- The denylist has no say in the action. -/
abbrev Mild (a : Action α) : Prop := Keeps Store.SameDenylist a

/-! ## New values -/

theorem newMethod_mild (receiver : Value) (m : Method) : Mild (newMethod receiver m) :=
  Keeps.bind (.make fun _ => rfl) fun _ => .ret _

theorem newTuple_mild (items : List Value) : Mild (newTuple items) := by
  unfold newTuple
  split
  · exact .ret _
  · exact Keeps.bind (.make fun _ => rfl) fun _ => .ret _

theorem newFunction_mild (code : FunctionCode) : Mild (newFunction code) :=
  Keeps.bind (.make fun _ => rfl) fun _ => .ret _

theorem theFunction_mild (code : FunctionCode) : Mild (theFunction code) := by
  refine (Keeps.make fun s => ?_).bind fun _ => .ret _
  unfold Store.uniqueFunction
  split <;> rfl

end Action

namespace Property

open Lisplet.Action

/-! ## Attributes -/

theorem method?_mild (v : Value) (name : String) : Mild (method? v name) := by
  intro s
  obtain ⟨a, hread, heq⟩ := method?_read v name s
  rw [heq]
  cases hread with
  | absent | shared _ | given _ _ _ _ _ => exact Keeps.ret _ s
  | fresh m => exact (newMethod_mild _ m).map s
  | builtIn _ _ _ | unbound _ _ => exact (theFunction_mild _).map s

theorem attribute?_mild (v : Value) (name : String) : Mild (attribute? v name) := by
  refine (Keeps.gets _).bind fun slot => ?_
  cases slot with
  | some value => exact .ret _
  | none => exact method?_mild v name

theorem member_mild (v : Value) (name : String) : Mild (member v name) := by
  refine (attribute?_mild v name).bind fun value => ?_
  cases value with
  | some value => exact .ret _
  | none => exact .raise (by simp [Store.missingAttribute_kind])

theorem hasAttribute_mild (v : Value) (name : String) : Mild (hasAttribute v name) := by
  unfold hasAttribute
  split
  · exact .ret _
  · exact (attribute?_mild v name).bind fun _ => .ret _

theorem attributeOf_mild (v key : Value) : Mild (attributeOf v key) := by
  unfold attributeOf
  split
  · exact .ret _
  · exact (attribute?_mild v _).bind fun _ => .ret _

/-! ## Sequences -/

theorem index?_errors (key : Value) : ErrorsAmong [.value] (index? key) := by
  unfold index?
  split
  · exact .ok _
  · exact .ok _
  · split
    · split
      · split
        · exact .ok _
        · exact .error (by simp [numeralFault, Fault.kind]) rfl
      · exact .ok _
    · exact .ok _

theorem indexOf_mild (key : Value) : Mild (Action.ofExcept (index? key)) :=
  .ofExcept (index?_errors key) (by decide)

theorem sequenceMethod?_mild (sequence key : Value) : Mild (sequenceMethod? sequence key) := by
  refine (Keeps.keyOf key).bind fun _ => ?_
  split
  · exact (newTuple_mild _).bind fun _ => Keeps.bind (.make fun _ => rfl) fun _ =>
      (newFunction_mild _).map
  · exact .ret _

theorem ofSequence_mild (v : Value) (items : Array Value) (key : Value) :
    Mild (ofSequence v items key) := by
  refine (indexOf_mild key).bind fun index => ?_
  cases index with
  | some i => exact .ret _
  | none =>
    dsimp only
    split
    · exact .ret _
    · refine (sequenceMethod?_mild v key).bind fun method => ?_
      cases method with
      | some method => exact .ret _
      | none => exact attributeOf_mild v key

/-! ## Writing -/

theorem refusal_mild (v : Value) (name : String) : Mild (refusal v name) := by
  refine (hasAttribute_mild v name).bind fun found => ?_
  split
  · exact .raise (by simp [readOnlyAttribute, Fault.kind])
  · exact .raise (by simp [Fault.kind])

theorem setClosureAttribute_mild (r : ClosureRef) (c : Closure) (name : String) (value : Value) :
    Mild (setClosureAttribute r c name value) := by
  unfold setClosureAttribute
  split
  case h_4 => exact refusal_mild _ _
  all_goals exact .update fun _ => rfl

theorem setScopeAttribute_mild (r : ScopeRef) (name : String) (value : Value) :
    Mild (setScopeAttribute r name value) := by
  refine (Keeps.gets _).bind fun scope => ?_
  split
  case h_4 => exact refusal_mild _ _
  all_goals exact .update fun _ => rfl

theorem setKindAttribute_mild (k : NodeKind) (name : String) (value : Value) :
    Mild (setKindAttribute k name value) := by
  unfold setKindAttribute
  split
  · exact .raise (by simp [Fault.kind])
  · exact .update fun _ => rfl

theorem setAttribute_mild (v : Value) (name : String) (value : Value) :
    Mild (setAttribute v name value) := by
  cases v with
  | object r => exact (Keeps.gets _).bind fun _ => .update fun _ => rfl
  | function r =>
    simp only [setAttribute]
    split
    · exact .raise (by simp [Fault.kind])
    · exact .update fun _ => rfl
  | closure r =>
    refine (Keeps.gets _).bind fun c => ?_
    cases c with
    | some c => exact setClosureAttribute_mild r c name value
    | none => exact refusal_mild _ _
  | form f =>
    simp only [setAttribute]
    split
    · exact .update fun _ => rfl
    · exact .update fun _ => rfl
    · exact refusal_mild _ _
  | scope r => exact setScopeAttribute_mild r name value
  | node n => exact .raise (by simp [Fault.kind])
  | kind k => exact setKindAttribute_mild k name value
  | method _ _ _ => exact .raise (by simp [Fault.kind])
  | _ => exact refusal_mild _ _

theorem setElement_mild (r : ListRef) (i : Int) (value : Value) : Mild (setElement r i value) := by
  refine (Keeps.gets _).bind fun items => ?_
  dsimp only
  split
  · exact .update fun _ => rfl
  · split
    · exact .raise (by simp [Fault.kind])
    · split
      · exact .update fun _ => rfl
      · exact .raise (by simp [Fault.kind])

theorem setNamed_mild (v key value : Value) : Mild (setNamed v key value) :=
  (Keeps.plain key).bind fun name => setAttribute_mild v name value

end Property

end Lisplet
