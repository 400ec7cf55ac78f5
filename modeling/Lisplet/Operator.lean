import Lisplet.Store.Equality

/-!
# Operators

What the binary operators do with two values. Arithmetic is exact on integers and rounds once on
doubles; a boolean counts as zero or one. Addition also joins texts, bytes, lists and tuples,
multiplication by an integer repeats them, and subtraction takes the elements of a set from another
one. Errors name the types of the operands.
-/

namespace Lisplet

/-- A number that arithmetic works on. -/
inductive Numeric where
  | int (i : Int)
  | float (d : Double)
  deriving DecidableEq, Repr

/-- The number that a value counts as in arithmetic. -/
def Value.numeric? : Value → Option Numeric
  | .bool b => some (.int (if b then 1 else 0))
  | .int i => some (.int i)
  | .float d => some (.float d)
  | _ => none

namespace Numeric

/-- The number as a double. -/
def toDouble : Numeric → Action Double
  | .float d => return d
  | .int i =>
    match Double.ofInt? i with
    | some d => return d
    | none => .raise .tooLargeForFloat

/-- Arithmetic with one rule for two integers and one for doubles. -/
def combine (ints : Int → Int → Int) (doubles : Double → Double → Double) :
    Numeric → Numeric → Action Value
  | .int a, .int b => return .int (ints a b)
  | a, b => do Action.newFloat (doubles (← a.toDouble) (← b.toDouble))

/-- The quotient, which is a double. -/
def divide : Numeric → Numeric → Action Value
  | .int a, .int b =>
    if b == 0 then .raise .divisionByZero
    else
      match Double.ofRatio ((a < 0) != (b < 0)) a.natAbs b.natAbs with
      | .fin neg units => return .float (.fin neg units)
      | _ => .raise .quotientTooLarge
  | a, b => do
    let x ← a.toDouble
    let y ← b.toDouble
    if y.isZero then .raise .floatDivisionByZero else Action.newFloat (x.div y)

end Numeric

namespace Operator

/-- The longest sequence that repetition may make. -/
def maxRepeated : Nat := 100000000

/-- How often a sequence is repeated, given the length of the sequence; a negative count is none. -/
def repetitions (length : Nat) (count : Int) : Action Nat :=
  let bound : Int := Nat.pow 2 63
  if count ≤ 0 || length == 0 then
    if -bound ≤ count && count < bound then return 0
    else .raise (.plain .overflow "cannot fit 'int' into an index-sized integer")
  else if bound ≤ count then
    .raise (.plain .overflow "cannot fit 'int' into an index-sized integer")
  else if maxRepeated < length * count.toNat then .raise (.raised .memory [])
  else return count.toNat

/-- A sequence repeated. -/
def repeated (sequence : Value) (count : Int) : Action Value := do
  match sequence with
  | .list r =>
    let items ← Action.gets (·.list r)
    let n ← repetitions items.size count
    Action.newList (List.replicate n items.toList).flatten.toArray
  | .tuple _ items =>
    if count == 1 then return sequence
    let n ← repetitions items.length count
    Action.newTuple (List.replicate n items).flatten
  | .bytes _ data =>
    let n ← repetitions data.length count
    if n * data.length == data.length then return sequence
    return .bytes (← Action.newId) (List.replicate n data).flatten
  | v =>
    match v.text? with
    | some t =>
      let n ← repetitions t.length count
      return .str (String.join (List.replicate n t))
    | none => return .undefined

/-- A list, a tuple, a text or bytes. -/
def isSequence : Value → Bool
  | .list _ | .tuple _ _ | .str _ | .kind _ | .bytes _ _ => true
  | _ => false

/-- The sum, or two sequences of one type joined. -/
def sum (a b : Value) : Action Value := do
  match a.numeric?, b.numeric? with
  | some x, some y => Numeric.combine (· + ·) Double.add x y
  | _, _ =>
    match a, b with
    | .list x, .list y => do
      let xs ← Action.gets (·.list x)
      let ys ← Action.gets (·.list y)
      Action.newList (xs ++ ys)
    | .list _, _ => .raise (.cannotConcatenate "list" b.typeName)
    | .tuple _ xs, .tuple _ ys =>
      if xs.isEmpty then return b
      else if ys.isEmpty then return a
      else Action.newTuple (xs ++ ys)
    | .tuple _ _, _ => .raise (.cannotConcatenate "tuple" b.typeName)
    | .bytes _ x, .bytes _ y =>
      if x.isEmpty then return b else if y.isEmpty then return a else Action.newBytes (x ++ y)
    | .bytes _ _, _ => .raise (.plain .type ("can't concat " ++ b.typeName ++ " to bytes"))
    | _, _ =>
      match a.text?, b.text? with
      | some t, some u => return .str (t ++ u)
      | some _, none => .raise (.cannotConcatenate "str" b.typeName)
      | none, _ => .raise (.unsupported "+" a.typeName b.typeName)

/-- The elements of some values that are no key among others. -/
def without (items others : List Value) : List Value :=
  items.filter fun item => !others.any fun other => other.key.toOption == item.key.toOption

/-- The difference, or the elements of a set that another one does not have. -/
def difference (a b : Value) : Action Value :=
  match a.numeric?, b.numeric? with
  | some x, some y => Numeric.combine (· - ·) Double.sub x y
  | _, _ =>
    match a, b with
    | .set _ xs, .set _ ys => Action.newSet (without xs ys)
    | _, _ => .raise (.unsupported "-" a.typeName b.typeName)

/-- The product, or a sequence repeated. -/
def product (a b : Value) : Action Value :=
  match a.numeric?, b.numeric? with
  | some x, some y => Numeric.combine (· * ·) Double.mul x y
  | _, _ =>
    if isSequence a then
      match b.index? with
      | some n => repeated a n
      | none => .raise (.cannotRepeat b.typeName)
    else if isSequence b then
      match a.index? with
      | some n => repeated b n
      | none => .raise (.cannotRepeat a.typeName)
    else .raise (.unsupported "*" a.typeName b.typeName)

/-- The quotient. -/
def quotient (a b : Value) : Action Value :=
  match a.numeric?, b.numeric? with
  | some x, some y => Numeric.divide x y
  | _, _ => .raise (.unsupported "/" a.typeName b.typeName)

/-- The value of an operator for two operands. -/
def apply : Operator → Value → Value → Action Value
  | .add, a, b => sum a b
  | .sub, a, b => difference a b
  | .mul, a, b => product a b
  | .div, a, b => quotient a b
  | .equal, a, b => return .bool (a.strictEquals b)
  | .notEqual, a, b => return .bool (!a.strictEquals b)
  | .less, a, b => do return .bool (← Comparison.less.holds a b)
  | .greater, a, b => do return .bool (← Comparison.greater.holds a b)
  | .atMost, a, b => do return .bool (← Comparison.atMost.holds a b)
  | .atLeast, a, b => do return .bool (← Comparison.atLeast.holds a b)
  | .both, a, b => do if ← Action.truthy a then return b else return a
  | .either, a, b => do if ← Action.truthy a then return a else return b
  | .coalesce, a, b => return if a.isNullish then b else a

end Operator

end Lisplet
