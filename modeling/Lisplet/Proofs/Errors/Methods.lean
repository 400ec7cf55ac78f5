import Lisplet.Evaluation.Call
import Lisplet.Proofs.Errors.Candid
import Lisplet.Proofs.Method.Reading

/-!
# Errors of methods

The methods of texts, bytes, numbers, lists, tuples and sets raise errors of their own, without
frames.
-/

namespace Lisplet

open Lisplet.Action

/-! ## Lists, tuples and sets -/

namespace Sorting

@[grind ←]
theorem onFailure_candid {α : Type} {change : Store → Store} {a : Action α}
    (hchange : ∀ s, (change s).shared = s.shared) (h : Candid a) : Candid (onFailure change a) := by
  intro s
  have hs := h s
  unfold onFailure
  split
  · next e t ha =>
    rw [ha] at hs
    obtain ⟨ht, hraised, hshared⟩ := hs
    exact ⟨(hchange t).trans ht, hraised, hshared⟩
  · exact hs

@[grind ←]
theorem firstRun_candid (items : List Value) : Candid (firstRun items) := by
  unfold firstRun
  grind

@[grind ←]
theorem insertAll_candid (r : ListRef) (sorted : Array Value) (items : List Value) :
    Candid (insertAll r sorted items) := by
  fun_induction insertAll <;> grind

@[grind ←]
theorem sort_candid (r : ListRef) : Candid (sort r) := by
  unfold sort
  grind

end Sorting

@[grind ←]
theorem TupleMethod.call_candid (m : TupleMethod) (items args : List Value) :
    Candid (m.call items args) := by
  unfold TupleMethod.call
  grind

namespace ListMethod

@[grind ←]
theorem become_candid (r : ListRef) (items : List Value) : Candid (become r items) := by
  unfold become
  grind

@[grind ←]
theorem popAt_candid (r : ListRef) (items : List Value) (i : Int) : Candid (popAt r items i) := by
  unfold popAt
  grind

@[grind ←]
theorem call_candid (m : ListMethod) (r : ListRef) (args : List Value) :
    Candid (m.call r args) := by
  unfold call
  grind

end ListMethod

namespace SetMethod

@[grind ←]
theorem inserted_candid (items others : List Value) : Candid (inserted items others) := by
  fun_induction inserted <;> grind

@[grind ←]
theorem distinct_candid (v : Value) : Candid (distinct v) := by
  unfold distinct
  grind

@[grind ←]
theorem common_candid (items others : List Value) : Candid (common items others) := by
  fun_induction common <;> grind

@[grind ←]
theorem allTaken_candid (source : Value) {test : Value → Action Bool} (h : ∀ v, Candid (test v))
    (items : List Value) : Candid (allTaken source test items) := by
  fun_induction allTaken source test items <;> grind

@[grind ←]
theorem unionWith_candid (items others : List Value) : Candid (unionWith items others) := by
  fun_induction unionWith <;> grind

@[grind ←]
theorem intersectionWith_candid (items others : List Value) :
    Candid (intersectionWith items others) := by
  fun_induction intersectionWith <;> grind

@[grind ←]
theorem differenceWith_candid (items others : List Value) :
    Candid (differenceWith items others) := by
  fun_induction differenceWith <;> grind

@[grind ←]
theorem call_candid (m : SetMethod) (receiver : Value) (items args : List Value) :
    Candid (m.call receiver items args) := by
  unfold call
  cases m <;> refine .bind ?_ fun _ => ?_ <;> grind

end SetMethod

/-! ## Numbers -/

namespace NumberMethod

@[grind ←]
theorem ratio_candid (num : Int) (den : Nat) : Candid (ratio num den) := by
  unfold ratio
  grind

@[grind ←]
theorem bytesOfInt_candid (i : Int) (args : List Value) : Candid (bytesOfInt i args) := by
  refine (checkBytesArity_reads _ _).candid.bind fun _ => ?_
  split <;> grind

@[grind ←]
theorem bytesIn_candid (v : Value) : Candid (bytesIn v) := by
  unfold bytesIn
  grind

@[grind ←]
theorem intOfBytes_candid (args : List Value) : Candid (intOfBytes args) := by
  unfold intOfBytes
  grind

@[grind ←]
theorem ofHexText_candid (args : List Value) : Candid (ofHexText args) := by
  unfold ofHexText
  grind

@[grind ←]
theorem callInt_candid (m : NumberMethod) (typeName : String) (i : Int) (args : List Value) :
    Candid (m.callInt typeName i args) := by
  unfold callInt
  grind

@[grind ←]
theorem callBool_candid (m : NumberMethod) (b : Bool) (args : List Value) :
    Candid (m.callBool b args) := by
  unfold callBool
  grind

@[grind ←]
theorem callDouble_candid (m : NumberMethod) (d : Double) (args : List Value) :
    Candid (m.callDouble d args) := by
  unfold callDouble
  grind

end NumberMethod

/-! ## Texts -/

namespace TextMethod

@[grind ←]
theorem listOf_candid (parts : List (List Char)) : Candid (listOf parts) := by
  unfold listOf
  grind

@[grind ←]
theorem tests_candid (name : String) (test : List Char → List Char → Bool) (cs : List Char)
    (args : List Value) :
    Candid (tests name test cs args) := by
  unfold tests
  grind

@[grind ←]
theorem only_candid (args : List Value) : Candid (only args) := by
  unfold only
  grind

@[grind ←]
theorem splitBy_candid (atBlanks : Option Nat → List Char → List (List Char))
    (atSeparator : List Char → Option Nat → List Char → List (List Char)) (cs : List Char)
    (args : List Value) :
    Candid (splitBy atBlanks atSeparator cs args) := by
  unfold splitBy
  grind

@[grind ←]
theorem partitioned_candid (cut : List Char → List Char → Option (List Char × List Char))
    (otherwise : List (List Char)) (cs : List Char) (args : List Value) :
    Candid (partitioned cut otherwise cs args) := by
  unfold partitioned
  grind

@[grind ←]
theorem joinAll_candid (sep : List Char) (args : List Value) : Candid (joinAll sep args) := by
  unfold joinAll
  grind

@[grind ←]
theorem call_candid (m : TextMethod) (cs : List Char) (args : List Value) :
    Candid (m.call cs args) := by
  refine (Arity.check_reads _ _).candid.bind fun _ => ?_
  cases m <;> grind

end TextMethod

/-! ## Bytes -/

namespace BytesMethod

@[grind ←]
theorem requiredPlace_candid (place : Option Nat) : Candid (requiredPlace place) := by
  unfold requiredPlace
  grind

@[grind ←]
theorem keptOr_candid (receiver : Value) (data result : List UInt8) :
    Candid (keptOr receiver data result) := by
  unfold keptOr
  grind

@[grind ←]
theorem keptOrNew_candid (receiver : Value) (data result : List UInt8) :
    Candid (keptOrNew receiver data result) := by
  unfold keptOrNew
  grind

@[grind ←]
theorem keptOrAll_candid (receiver : Value) (data : List UInt8) (parts : List (List UInt8)) :
    Candid (keptOrAll receiver data parts) := by
  fun_induction keptOrAll <;> grind

@[grind ←]
theorem listOf_candid (receiver : Value) (data : List UInt8) (parts : List (List UInt8)) :
    Candid (listOf receiver data parts) := by
  unfold listOf
  grind

@[grind ←]
theorem tests_candid (name : String) (test : List UInt8 → List UInt8 → Bool) (data : List UInt8)
    (args : List Value) :
    Candid (tests name test data args) := by
  unfold tests
  grind

@[grind ←]
theorem splitBy_candid (atBlanks : Option Nat → List UInt8 → List (List UInt8))
    (atSeparator : List UInt8 → Option Nat → List UInt8 → List (List UInt8)) (receiver : Value)
    (data : List UInt8) (args : List Value) :
    Candid (splitBy atBlanks atSeparator receiver data args) := by
  unfold splitBy
  split <;> grind

@[grind ←]
theorem partitioned_candid (cut : List UInt8 → List UInt8 → Option (List UInt8 × List UInt8))
    (atEnd : Bool) (receiver : Value) (data : List UInt8) (v : Value) :
    Candid (partitioned cut atEnd receiver data v) := by
  unfold partitioned
  grind

@[grind ←]
theorem joinAll_candid (data : List UInt8) (v : Value) : Candid (joinAll data v) := by
  unfold joinAll
  grind

@[grind ←]
theorem hexText_candid (data : List UInt8) (args : List Value) : Candid (hexText data args) := by
  unfold hexText
  grind

@[grind ←]
theorem fromHex_candid (v : Value) : Candid (fromHex v) := by
  unfold fromHex
  grind

@[grind ←]
theorem decoded_candid (receiver : Value) (data : List UInt8) (args : List Value) :
    Candid (decoded receiver data args) := by
  unfold decoded
  split
  · split <;> grind
  · dsimp only
    split
    all_goals
      refine .bind (by grind) fun encoding => ?_
      split
      all_goals
        refine .bind (by grind) fun remedy => ?_
        split
        · exact .raise _
        · exact (mended_reads _ _ _ _).candid.bind fun _ => .ret _

@[grind ←]
theorem makeTable_candid (source image : Value) : Candid (makeTable source image) := by
  unfold makeTable
  grind

@[grind ←]
theorem translated_candid (receiver : Value) (data : List UInt8) (table : Value)
    (dropped : Option Value) :
    Candid (translated receiver data table dropped) := by
  unfold translated
  grind

@[grind ←]
theorem call_candid (m : BytesMethod) (receiver : Value) (data : List UInt8)
    (args : List Value) :
    Candid (m.call receiver data args) := by
  refine (Arity.check_reads _ _).candid.bind fun _ => ?_
  cases m with
  | replace =>
    refine (bytes_reads _).candid.bind fun _ => (bytes_reads _).candid.bind fun _ => ?_
    dsimp only
    split <;> grind
  | _ => grind

end BytesMethod

end Lisplet
