import Lisplet.Double.Basic

/-!
# Shortest decimal text of a double

`Double.digits` finds the fewest significant digits that read back as the same double, and among
the decimals of that length the nearest one. The interval of reals that round to the double has its
ends half a step away on each side (a quarter step below a power of two), and an end belongs to it
when the significand is even. All comparisons are between whole numbers.

`Double.text` lays the digits out: positional notation for exponents from `-4` to `15`, otherwise
scientific notation with at least two exponent digits, and always a point or an exponent.
-/

namespace Lisplet.Double

open Extent (unitsPerOne)

/-- The distance from a finite magnitude to the next one above it, in units. -/
def step (units : Nat) : Nat := Nat.pow 2 (units.log2 - 52)

/-- Whether a decimal, given as a quotient of units, rounds to this magnitude. -/
def roundsTo (units num den : Nat) : Bool :=
  let s := step units
  let below := if 1 < s && units == Nat.pow 2 units.log2 then s else 2 * s
  let low := (4 * units - below) * den
  let high := (4 * units + 2 * s) * den
  let v := 4 * num
  if (units / s) % 2 == 0 then low ≤ v && v ≤ high else low < v && v < high

/-- Ten to an exponent as a fraction. -/
def tenTo (e : Int) : Nat × Nat :=
  if e < 0 then (1, Nat.pow 10 e.natAbs) else (Nat.pow 10 e.toNat, 1)

/-- The magnitude is at least ten to the exponent. -/
def reaches (units : Nat) (e : Int) : Bool :=
  let t := tenTo e
  t.1 * unitsPerOne ≤ units * t.2

/-- The decimal exponent of a magnitude: how many digits stand before the point. -/
def pointOf (units : Nat) : Int :=
  let guess : Int := ((units.log2 : Int) - 1074) * 30103 / 100000
  if reaches units (guess + 2) then guess + 3
  else if reaches units (guess + 1) then guess + 2
  else if reaches units guess then guess + 1
  else if reaches units (guess - 1) then guess
  else guess - 1

/-- The best decimal with `n` significant digits that reads back as this magnitude, if there is one:
the nearer of the two neighbours on the grid, and of two equally near ones the even one. -/
def decimal? (units : Nat) (point : Int) (n : Nat) : Option Nat :=
  let t := tenTo (point - n)
  -- one step of the grid is `grid.1 / grid.2` units
  let grid := (t.1 * unitsPerOne, t.2)
  let num := units * grid.2
  let d := num / grid.1
  let r := num % grid.1
  let ok := fun k : Nat => roundsTo units (k * grid.1) grid.2
  let lowOk := d != 0 && ok d
  let highOk := ok (d + 1)
  if lowOk && highOk then
    some (if 2 * r < grid.1 then d else if grid.1 < 2 * r then d + 1 else d + d % 2)
  else if lowOk then some d
  else if highOk then some (d + 1)
  else none

/-- The first length from `n` on that has a decimal; seventeen digits always suffice. -/
def shortestFrom (units : Nat) (point : Int) : (n fuel : Nat) → Nat × Nat
  | n, 0 => (n, 0)
  | n, fuel + 1 =>
    match decimal? units point n with
    | some d => (n, d)
    | none => shortestFrom units point (n + 1) fuel

/-- The significant digits of a non-zero magnitude and the position of the point among them. -/
def digits (units : Nat) : List Char × Int :=
  let point := pointOf units
  let (n, d) := shortestFrom units point 1 17
  let ds := Nat.toDigits 10 d
  -- rounding up to a power of ten adds a digit
  let point := point + ((ds.length : Int) - n)
  let trimmed := (ds.reverse.dropWhile (· == '0')).reverse
  (if trimmed.isEmpty then ['0'] else trimmed, point)

/-- Digits and the position of the point written out. -/
def layOut (ds : List Char) (point : Int) : List Char :=
  let n : Int := ds.length
  if -4 < point && point ≤ 16 then
    if point ≤ 0 then '0' :: '.' :: List.replicate point.natAbs '0' ++ ds
    else if n ≤ point then ds ++ List.replicate (point - n).toNat '0' ++ ['.', '0']
    else ds.take point.toNat ++ '.' :: ds.drop point.toNat
  else
    let e := point - 1
    let es := Nat.toDigits 10 e.natAbs
    let es := if es.length < 2 then '0' :: es else es
    let mantissa := match ds with
      | [d] => [d]
      | d :: rest => d :: '.' :: rest
      | [] => []
    mantissa ++ 'e' :: (if e < 0 then '-' else '+') :: es

/-- The text of a double. -/
def text : Double → String
  | .nan _ => "nan"
  | .inf neg => if neg then "-inf" else "inf"
  | .fin neg units =>
    let body := if units == 0 then ['0', '.', '0'] else
      let (ds, point) := digits units
      layOut ds point
    String.ofList (if neg then '-' :: body else body)

end Lisplet.Double
