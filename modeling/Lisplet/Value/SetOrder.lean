import Lisplet.Value.Basic

/-!
# The order of set elements

The elements of a set of numbers are listed by their places. A number is placed by its residue
modulo the prime `2 ^ 61 - 1`, which is the same for an integer and a double of one value; there are
several times as many places as elements. Elements of other types are listed in the order in which
they came.
-/

namespace Lisplet

namespace Value

/-- The prime modulo which numbers are placed. -/
def placeModulus : Nat := Nat.pow 2 61 - 1

/-- A residue with the sign of its number. Minus one gives way to minus two. -/
def signedResidue (neg : Bool) (residue : Nat) : Int :=
  match neg, residue with
  | false, r => r
  | true, 1 => -2
  | true, r => -(r : Int)

/-- The residue that places a number. The unit of doubles, `2 ^ (-1074)`, is `2 ^ 24` modulo the
prime. -/
def residue? : Value → Option Int
  | .bool b => some (if b then 1 else 0)
  | .int i => some (signedResidue (i < 0) (i.natAbs % placeModulus))
  | .float (.fin neg units) =>
    some (signedResidue neg (units % placeModulus * Nat.pow 2 24 % placeModulus))
  | .float (.inf neg) => some (if neg then -314159 else 314159)
  | _ => none

/-- The residues that place some values, if all of them are numbers. -/
def residues? : List Value → Option (List Int)
  | [] => some []
  | v :: rest => do return (← residue? v) :: (← residues? rest)

/-- The number of places for so many elements: a power of two with enough room. -/
def placeCount (elements : Nat) : Nat :=
  ([8, 32, 128, 512, 2048, 8192, 32768].find? fun n => elements * 5 < (n - 1) * 3).getD 131072

/-- The elements of a set in the order in which they are listed. -/
def setOrder (items : List Value) : List Value :=
  match residues? items with
  | none => items
  | some residues =>
    let places := residues.map fun r => r.emod (placeCount items.length)
    ((places.zip items).mergeSort fun a b => a.1 ≤ b.1).map (·.2)

end Value

end Lisplet
