import Lisplet.Operator
import Lisplet.Property.Basic
import Lisplet.Proofs.Store.Reading

/-!
# Guards, searches and comparisons only read

A guard looks at the denylist, a search at the items of a container, and a comparison at its two
operands. None of them changes anything.
-/

namespace Lisplet

open Lisplet.Action

/-! ## Guards -/

namespace Property

@[grind ←]
theorem guardName_reads (name : String) : Reads (guardName name) := by
  refine Reads.bind (.gets _) fun denylist => ?_
  split
  · exact .raise _
  · exact .ret _

@[grind ←]
theorem guardText_reads (name : String) : Reads (guardText name) := by
  refine (guardName_reads name).bind fun _ => ?_
  split
  · exact .raise _
  · exact .ret _

@[grind ←]
theorem guardKey_reads (key : Value) : Reads (guardKey key) := by
  unfold guardKey
  split
  · exact guardText_reads _
  · exact .ret _

@[grind ←]
theorem guardValue_reads (name : Value) : Reads (guardValue name) := by
  unfold guardValue
  split
  · exact guardName_reads _
  · exact .discard (.keyOf name)

end Property

/-! ## Containers -/

namespace Action.Reads

variable {α : Type}

@[grind ←]
theorem anyEqual (value : Value) (items : List Value) : Reads (Action.anyEqual value items) := by
  induction items with
  | nil => exact ret false
  | cons v rest ih =>
    refine (within _).bind fun same => ?_
    split
    · exact ret true
    · exact ih

@[grind ←]
theorem keyAmong (value : Value) (items : List Value) : Reads (Action.keyAmong value items) :=
  (keyOf value).bind fun _ => ret _

@[grind ←]
theorem containsBytes (data : List UInt8) (value : Value) :
    Reads (Action.containsBytes data value) := by
  unfold Action.containsBytes
  split
  · exact ret _
  · split
    · exact ret _
    · exact raise _
  · exact raise _

@[grind ←]
theorem containsText (text : String) (part : Value) : Reads (Action.containsText text part) := by
  unfold Action.containsText
  split
  · exact ret _
  · exact raise _

@[grind ←]
theorem atPosition (name complaint : String) (items : List α) (key : Value) :
    Reads (Action.atPosition name complaint items key) := by
  unfold Action.atPosition
  split
  · exact raise _
  · dsimp only
    split
    · exact raise _
    · split
      · exact ret _
      · exact raise _

@[grind ←]
theorem noPositions (v : Value) : Reads (Action.noPositions v : Action α) := by
  unfold Action.noPositions
  split <;> exact raise _

@[grind ←]
theorem subscript (container key : Value) : Reads (Action.subscript container key) := by
  unfold Action.subscript
  dsimp only
  split
  · exact (gets _).bind fun _ => atPosition _ _ _ key
  · exact atPosition _ _ _ key
  · exact atPosition _ _ _ key
  · refine (gets _).bind fun _ => (keyOf key).bind fun _ => ?_
    split
    · exact ret _
    · exact raise _
  · split
    · exact atPosition _ _ _ key
    · exact noPositions _

end Action.Reads

/-! ## Comparisons and numbers -/

namespace Comparison

@[grind ←]
theorem ofSequences_reads (c : Comparison) {rel : Value → Value → Action Bool}
    (h : ∀ a b, Reads (rel a b)) (xs ys : List Value) : Reads (c.ofSequences rel xs ys) := by
  fun_induction ofSequences c rel xs ys <;> grind

@[grind ←]
theorem holdsWithin_reads (c : Comparison) (fuel : Nat) (a b : Value) :
    Reads (c.holdsWithin fuel a b) := by
  induction fuel generalizing a b with
  | zero => exact .exhausted
  | succ fuel ih =>
    unfold holdsWithin
    grind

@[grind ←]
theorem holds_reads (c : Comparison) (a b : Value) : Reads (c.holds a b) :=
  c.holdsWithin_reads _ a b

end Comparison

namespace Numeric

/-- What becomes of an integer is kept opaque here, since the kernel would work it out. -/
theorem cases_reads (x : Numeric) {ofInt : Int → Action Double} (hint : ∀ i, Reads (ofInt i)) :
    Reads (match x with
      | .float d => pure d
      | .int i => ofInt i) := by
  cases x with
  | float d => exact .ret d
  | int i => exact hint i

@[grind ←]
theorem toDouble_reads (x : Numeric) : Reads x.toDouble := by
  refine cases_reads x fun i => ?_
  generalize Double.ofInt? i = d
  cases d with
  | some d => exact .ret d
  | none => exact .raise _

end Numeric

@[grind ←]
theorem Operator.repetitions_reads (length : Nat) (count : Int) :
    Reads (repetitions length count) := by
  unfold repetitions
  grind

end Lisplet
