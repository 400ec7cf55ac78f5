import Lisplet.Method.Bytes
import Lisplet.Method.List
import Lisplet.Method.Number
import Lisplet.Method.Text
import Lisplet.Proofs.Operator.Reading

/-!
# Methods look at their arguments

Before a method does anything it checks how many arguments it is given and takes them apart. That
only reads, and so does what methods look for in a sequence, and whether a test holds of a part of
it.
-/

namespace Lisplet

open Lisplet.Action

/-! ## Arguments -/

@[grind ←]
theorem Signature.check_reads (sig : Signature) (given : Nat) : Reads (sig.check given) := by
  unfold Signature.check
  grind

@[grind ←]
theorem Arity.check_reads (arity : Arity) (given : Nat) : Reads (arity.check given) := by
  unfold Arity.check
  grind

namespace Arguments

variable {α : Type}

@[grind ←]
theorem refused_reads (text : String) : Reads (refused text : Action α) := .raise _

@[grind ←]
theorem wrongCount_reads : Reads (wrongCount : Action α) := .raise _

@[grind ←]
theorem textOr_reads (v : Value) (complaint : String) : Reads (textOr v complaint) := by
  unfold textOr
  grind

@[grind ←]
theorem text_reads (v : Value) : Reads (text v) := by
  unfold text
  grind

@[grind ←]
theorem ofBits_reads (bits : Nat) (typeName : String) (v : Value) :
    Reads (ofBits bits typeName v) := by
  unfold ofBits
  grind

@[grind ←]
theorem size_reads (v : Value) : Reads (size v) := by
  unfold size
  grind

@[grind ←]
theorem switch_reads (v : Value) : Reads (switch v) := by
  unfold switch
  grind

@[grind ←]
theorem bound_reads (v : Value) : Reads (bound v) := by
  unfold bound
  grind

@[grind ←]
theorem limit_reads (v : Value) : Reads (limit v) := by
  unfold limit
  grind

end Arguments

/-! ## Lists -/

namespace Sorting

@[grind ←]
theorem less_reads (a b : Value) : Reads (less a b) := Comparison.less.holds_reads a b

@[grind ←]
theorem runLength_reads (descending : Bool) (previous : Value) (items : List Value) :
    Reads (runLength descending previous items) := by
  fun_induction runLength <;> grind

@[grind ←]
theorem place_reads (pivot : Value) (sorted : Array Value) (fuel lo hi : Nat) :
    Reads (place pivot sorted fuel lo hi) := by
  fun_induction place <;> grind

end Sorting

@[grind ←]
theorem indexFrom_reads (value : Value) (stop i : Nat) (items : List Value) :
    Reads (indexFrom value stop i items) := by
  fun_induction indexFrom <;> grind

@[grind ←]
theorem indexIn_reads (value : Value) (items : List Value) : Reads (indexIn value items) := by
  unfold indexIn
  grind

@[grind ←]
theorem countIn_reads (value : Value) (items : List Value) : Reads (countIn value items) := by
  fun_induction countIn <;> grind

@[grind ←]
theorem indexWithin_reads (items args : List Value) : Reads (indexWithin items args) := by
  unfold indexWithin
  refine (Arity.check_reads _ _).bind fun _ => ?_
  split
  · grind
  · grind
  · refine .bind ?_ fun _ => .bind ?_ fun _ => ?_ <;> grind
  · grind

/-! ## Numbers -/

namespace NumberMethod

@[grind ←]
theorem isLowestFirst_reads (method : String) (order : Option Value) :
    Reads (isLowestFirst method order) := by
  unfold isLowestFirst
  grind

@[grind ←]
theorem checkBytesArity_reads (method : String) (given : Nat) :
    Reads (checkBytesArity method given) := by
  unfold checkBytesArity
  grind

@[grind ←]
theorem byteOf_reads (v : Value) : Reads (byteOf v) := by
  unfold byteOf
  grind

@[grind ←]
theorem bytesOf_reads (items : List Value) : Reads (bytesOf items) := by
  fun_induction bytesOf <;> grind

end NumberMethod

/-! ## Texts -/

namespace TextMethod

@[grind ←]
theorem window_reads (length : Nat) (args : List Value) : Reads (window length args) := by
  unfold window
  grind

@[grind ←]
theorem target_reads (cs : List Char) (args : List Value) : Reads (target cs args) := by
  unfold target
  grind

@[grind ←]
theorem anyPasses_reads (name : String) (test : List Char → Bool) (items : List Value) :
    Reads (anyPasses name test items) := by
  fun_induction anyPasses <;> grind

@[grind ←]
theorem padding_reads (args : List Value) : Reads (padding args) := by
  unfold padding
  grind

@[grind ←]
theorem trimSet_reads (name : String) (args : List Value) : Reads (trimSet name args) := by
  unfold trimSet
  grind

@[grind ←]
theorem separator_reads (v : Value) (complaint : String) : Reads (separator v complaint) := by
  unfold separator
  grind

@[grind ←]
theorem argument_reads (name : String) (v : Value) : Reads (argument name v) := by
  unfold argument
  grind

end TextMethod

/-! ## Bytes -/

namespace BytesMethod

@[grind ←]
theorem notBytes_reads {α : Type} (v : Value) : Reads (notBytes v : Action α) := .raise _

@[grind ←]
theorem bytes_reads (v : Value) : Reads (bytes v) := by
  unfold bytes
  grind

@[grind ←]
theorem bytesOrByte_reads (v : Value) : Reads (bytesOrByte v) := by
  unfold bytesOrByte
  grind

@[grind ←]
theorem textNamed_reads (method name : String) (v : Value) : Reads (textNamed method name v) := by
  unfold textNamed
  grind

@[grind ←]
theorem window_reads (length : Nat) (args : List Value) : Reads (window length args) := by
  unfold window
  grind

@[grind ←]
theorem target_reads (data : List UInt8) (args : List Value) : Reads (target data args) := by
  unfold target
  grind

@[grind ←]
theorem locate_reads (search : List UInt8 → List UInt8 → Option Nat) (data : List UInt8)
    (args : List Value) :
    Reads (locate search data args) := by
  unfold locate
  grind

@[grind ←]
theorem anyPasses_reads (test : List UInt8 → Bool) (items : List Value) :
    Reads (anyPasses test items) := by
  fun_induction anyPasses <;> grind

@[grind ←]
theorem trimSet_reads (args : List Value) : Reads (trimSet args) := by
  unfold trimSet
  grind

@[grind ←]
theorem separator_reads (v : Value) : Reads (separator v) := by
  unfold separator
  grind

@[grind ←]
theorem bytesAll_reads (i : Nat) (items : List Value) : Reads (bytesAll i items) := by
  fun_induction bytesAll <;> grind

@[grind ←]
theorem padding_reads (name : String) (args : List Value) : Reads (padding name args) := by
  unfold padding
  grind

@[grind ←]
theorem hexSeparator_reads (v : Value) : Reads (hexSeparator v) := by
  unfold hexSeparator
  grind

@[grind ←]
theorem mended_reads (encoding : String) (receiver : Value) (remedy : String)
    (pieces : List Text.Piece) :
    Reads (mended encoding receiver remedy pieces) := by
  fun_induction mended <;> grind

end BytesMethod

end Lisplet
