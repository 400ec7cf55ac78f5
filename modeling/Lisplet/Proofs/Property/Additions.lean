import Lisplet.Proofs.Operator.Reading
import Lisplet.Proofs.Property.Methods
import Lisplet.Proofs.Store.Extending

/-!
# Reading properties only extends the store

A property that is read may be a method or a function that is made for the occasion. Nothing that
was in the store before is changed by it.
-/

namespace Lisplet.Property

open Lisplet.Action

/-! ## Attributes -/

theorem method?_extends (v : Value) (name : String) : Extends (method? v name) := by
  intro s
  obtain ⟨a, hread, heq⟩ := method?_read v name s
  rw [heq]
  cases hread with
  | absent | shared _ | given _ _ _ _ _ => exact Moves.ret _ s
  | fresh m => exact (Extends.newMethod _ m).map s
  | builtIn _ _ _ | unbound _ _ => exact (Extends.theFunction rfl).map s

theorem attribute?_extends (v : Value) (name : String) : Extends (attribute? v name) := by
  refine Moves.bind (.gets _) fun slot => ?_
  cases slot with
  | some value => exact .ret _
  | none => exact method?_extends v name

theorem member_extends (v : Value) (name : String) : Extends (member v name) := by
  refine (attribute?_extends v name).bind fun value => ?_
  cases value with
  | some value => exact .ret value
  | none => exact .raise _

theorem hasAttribute_extends (v : Value) (name : String) : Extends (hasAttribute v name) := by
  unfold hasAttribute
  split
  · exact .ret true
  · exact (attribute?_extends v name).bind fun _ => .ret _

/-! ## Properties -/

theorem textMethod_extends (text key : Value) : Extends (textMethod text key) := by
  unfold textMethod
  split
  · exact .ret _
  · split
    · exact member_extends text _
    · refine (hasAttribute_extends text _).bind fun known => ?_
      split
      · exact .raise _
      · exact .ret _

theorem sequenceMethod?_extends (sequence key : Value) :
    Extends (sequenceMethod? sequence key) := by
  refine Moves.bind (.keyOf key) fun _ => ?_
  split
  · exact (Extends.newTuple _).bind fun _ => (Extends.addDict _).bind fun _ =>
      (Extends.newFunction rfl).map
  · exact .ret _

theorem attributeOf_extends (v key : Value) : Extends (attributeOf v key) := by
  unfold attributeOf
  split
  · exact .ret _
  · exact (attribute?_extends v _).bind fun _ => .ret _

theorem ofSequence_extends (v : Value) (items : Array Value) (key : Value) :
    Extends (ofSequence v items key) := by
  refine Moves.bind (.ofExcept _) fun index => ?_
  cases index with
  | some i => exact .ret _
  | none =>
    dsimp only
    split
    · exact .ret _
    · refine (sequenceMethod?_extends v key).bind fun method => ?_
      cases method with
      | some method => exact .ret method
      | none => exact attributeOf_extends v key

theorem ofText_extends (v : Value) (text : String) (key : Value) :
    Extends (ofText v text key) := by
  refine Moves.bind (.ofExcept _) fun index => ?_
  cases index with
  | some i => exact .ret _
  | none =>
    dsimp only
    split
    · exact .ret _
    · exact textMethod_extends v key

theorem get_extends (v key : Value) : Extends (get v key) := by
  refine (guardKey_reads key).moves.bind fun _ => ?_
  split
  · exact Moves.bind (.compute _) fun _ => Moves.bind (.compute _) fun _ => .raise _
  · exact Moves.bind (.compute _) fun _ => Moves.bind (.compute _) fun _ => .raise _
  · exact Moves.bind (.keyOf key) fun _ => Moves.bind (.gets _) fun _ => .ret _
  · exact Moves.bind (.gets _) fun items => ofSequence_extends _ items key
  · exact ofSequence_extends _ _ key
  · exact ofText_extends _ _ key
  · exact ofText_extends _ _ key
  · exact attributeOf_extends _ key

theorem own_extends (v : Value) : Extends (own v) := by
  unfold own
  split
  case h_1 => exact .gets _
  all_goals first | exact .ret _ | exact Moves.bind (.gets _) fun _ => .ret _

end Lisplet.Property
