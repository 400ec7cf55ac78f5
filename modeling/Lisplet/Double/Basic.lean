/-!
# Double-precision numbers

A finite double is a whole number of units of `2 ^ (-1074)`, the distance between the two smallest
ones, so it is kept as that number of units with a sign. Arithmetic is exact on units and then
rounded once: `roundUnits` gives the nearest multiple of a power of two that has 53 significant
bits, a tie going to the even neighbour. Comparison, with doubles and with integers alike, compares
exact positions on the number line (`Extent`).

Two NaNs are told apart by a tag, because a script can ask whether two values are the same object.
-/

namespace Lisplet

/-- A double-precision number. -/
inductive Double where
  /-- Not a number. -/
  | nan (tag : Nat)
  /-- An infinity. -/
  | inf (neg : Bool)
  /-- The number of units of `2 ^ (-1074)`, with its sign. -/
  | fin (neg : Bool) (units : Nat)
  deriving DecidableEq, Repr, Inhabited

/-- A point of the number line, measured in units of `2 ^ (-1074)`, or one of its ends. -/
inductive Extent where
  | minusInf
  | at (units : Int)
  | plusInf
  deriving DecidableEq, Repr

namespace Extent

/-- How many units make one. -/
def unitsPerOne : Nat := Nat.pow 2 1074

/-- The position of an integer. -/
def ofInt (i : Int) : Extent := .at (i * unitsPerOne)

/-- Strict order on the number line. -/
def lt : Extent → Extent → Bool
  | .minusInf, .minusInf => false
  | .minusInf, _ => true
  | .at _, .minusInf => false
  | .at a, .at b => a < b
  | .at _, .plusInf => true
  | .plusInf, _ => false

end Extent

namespace Double

open Extent (unitsPerOne)

/-- The quotient rounded to the nearest whole number, a tie going to the even one. -/
def roundDiv (num den : Nat) : Nat :=
  let q := num / den
  let r := num % den
  if 2 * r < den then q else if den < 2 * r then q + 1 else q + q % 2

/-- The quotient rounded to a number of 53 significant bits. -/
def roundUnits (num den : Nat) : Nat :=
  let whole := num / den
  if whole < Nat.pow 2 53 then roundDiv num den
  else
    let step := Nat.pow 2 (whole.log2 - 52)
    roundDiv num (den * step) * step

/-- The double nearest to a quotient of units; a magnitude of `2 ^ 1024` or more is infinite. -/
def ofUnitsRatio (neg : Bool) (num den : Nat) : Double :=
  let units := roundUnits num den
  if units < Nat.pow 2 2098 then .fin neg units else .inf neg

/-- The double nearest to a quotient of natural numbers. -/
def ofRatio (neg : Bool) (num den : Nat) : Double := ofUnitsRatio neg (num * unitsPerOne) den

/-- The double nearest to an integer, unless that is infinite. -/
def ofInt? (i : Int) : Option Double :=
  match ofRatio (i < 0) i.natAbs 1 with
  | .fin neg units => some (.fin neg units)
  | _ => none

/-- Zero. -/
def zero : Double := .fin false 0

/-- The position of a number on the number line; a NaN has none. -/
def extent? : Double → Option Extent
  | .nan _ => none
  | .inf true => some .minusInf
  | .inf false => some .plusInf
  | .fin true units => some (.at (-(units : Int)))
  | .fin false units => some (.at units)

/-- The same magnitude with the other sign. -/
def neg : Double → Double
  | .nan t => .nan t
  | .inf s => .inf !s
  | .fin s u => .fin (!s) u

/-- The sum. Opposite infinities have no sum, and an exact cancellation is a positive zero. -/
def add : Double → Double → Double
  | .nan t, _ => .nan t
  | _, .nan t => .nan t
  | .inf s, .inf t => if s == t then .inf s else .nan 0
  | .inf s, .fin _ _ => .inf s
  | .fin _ _, .inf t => .inf t
  | .fin s u, .fin t v =>
    if s == t then ofUnitsRatio s (u + v) 1
    else if u == v then zero
    else if v < u then ofUnitsRatio s (u - v) 1
    else ofUnitsRatio t (v - u) 1

/-- The difference. -/
def sub (a b : Double) : Double := add a b.neg

/-- The product. An infinity times zero is not a number. -/
def mul : Double → Double → Double
  | .nan t, _ => .nan t
  | _, .nan t => .nan t
  | .inf s, .inf t => .inf (s != t)
  | .inf s, .fin t v => if v == 0 then .nan 0 else .inf (s != t)
  | .fin s u, .inf t => if u == 0 then .nan 0 else .inf (s != t)
  | .fin s u, .fin t v => ofUnitsRatio (s != t) (u * v) unitsPerOne

/-- The quotient, for a divisor that is not zero. -/
def div : Double → Double → Double
  | .nan t, _ => .nan t
  | _, .nan t => .nan t
  | .inf _, .inf _ => .nan 0
  | .inf s, .fin t _ => .inf (s != t)
  | .fin s _, .inf t => .fin (s != t) 0
  | .fin s u, .fin t v => ofUnitsRatio (s != t) (u * unitsPerOne) v

/-- Zero of either sign. -/
def isZero : Double → Bool
  | .fin _ units => units == 0
  | _ => false

/-- Not a number. -/
def isNaN : Double → Bool
  | .nan _ => true
  | _ => false

/-- The integer a double is equal to, if there is one. -/
def toInt? : Double → Option Int
  | .fin neg units =>
    if units % unitsPerOne == 0 then
      let n : Int := (units / unitsPerOne : Nat)
      some (if neg then -n else n)
    else none
  | _ => none

/-- The integer part of a finite double. -/
def truncate? : Double → Option Int
  | .fin neg units =>
    let n : Int := (units / unitsPerOne : Nat)
    some (if neg then -n else n)
  | _ => none

/-- The fraction in lowest terms that a finite double is equal to. -/
def ratio? : Double → Option (Int × Nat)
  | .fin neg units =>
    let g := Nat.gcd units unitsPerOne
    let n : Int := (units / g : Nat)
    some (if neg then -n else n, unitsPerOne / g)
  | _ => none

end Double

end Lisplet
