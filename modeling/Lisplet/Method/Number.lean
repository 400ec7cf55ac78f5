import Lisplet.Double.Hexadecimal
import Lisplet.Method.Signature
import Lisplet.Property.Elements

/-!
# Methods of numbers

Fractions, bits, bytes and hexadecimal text of integers and doubles.
-/

namespace Lisplet.NumberMethod

/-- A fraction as a tuple of numerator and denominator. -/
def ratio (num : Int) (den : Nat) : Action Value := Action.newTuple [.int num, .int den]

/-- The number of binary digits of a magnitude. -/
def bitLengthOf (n : Nat) : Nat := if n == 0 then 0 else n.log2 + 1

/-- The number of ones among the binary digits of a magnitude. -/
def onesIn (n : Nat) : Nat := (Nat.toDigits 2 n).count '1'

/-- The name of a method. -/
def name : NumberMethod → String
  | .integerRatio => "as_integer_ratio"
  | .bitCount => "bit_count"
  | .bitLength => "bit_length"
  | .conjugate => "conjugate"
  | .hex => "hex"
  | .isInteger => "is_integer"
  | .fromHex => "fromhex"
  | .fromBytes => "from_bytes"
  | .toBytes => "to_bytes"

/-! ## Bytes -/

/-- So many bytes of a number, the lowest one first. -/
def lowestFirst (length n : Nat) : List UInt8 :=
  (List.range length).map fun i => UInt8.ofNat ((n >>> (8 * i)) % 256)

/-- The number of bytes, the highest one first. -/
def ofHighestFirst (data : List UInt8) : Nat := data.foldl (fun n b => n * 256 + b.toNat) 0

/-- The name of an order of bytes says that the lowest one comes first. -/
def isLowestFirst (method : String) (order : Option Value) : Action Bool := do
  match order with
  | none => return false
  | some v =>
    let given := match v with
      | .nil => "None"
      | v => v.typeName
    match v.text? with
    | some "little" => return true
    | some "big" => return false
    | some _ => .raise (.plain .value "byteorder must be either 'little' or 'big'")
    | none =>
      Arguments.refused (method ++ "() argument 'byteorder' must be str, not " ++ given)

/-- Refuses more arguments than a length or bytes and the order of bytes. -/
def checkBytesArity (method : String) (given : Nat) : Action Unit :=
  if given ≤ 2 then return
  else if given == 3 then
    Arguments.refused (method ++ "() takes at most 2 positional arguments (3 given)")
  else
    Arguments.refused
      (method ++ "() takes at most 3 arguments (" ++ toString given ++ " given)")

/-- The bytes of an integer. -/
def bytesOfInt (i : Int) (args : List Value) : Action Value := do
  checkBytesArity "to_bytes" args.length
  let length ← match args[0]? with
    | none => pure 1
    | some v => Arguments.size v
  let lowest ← isLowestFirst "to_bytes" args[1]?
  if length < 0 then .raise (.plain .value "length argument must be non-negative")
  else if 100000000 < length then .raise (.raised .memory [])
  else if i < 0 then .raise (.plain .overflow "can't convert negative int to unsigned")
  else if 8 * length < bitLengthOf i.toNat then
    .raise (.plain .overflow "int too big to convert")
  else
    let data := lowestFirst length.toNat i.toNat
    Action.newBytes (if lowest then data else data.reverse)

/-- The byte that an element of bytes to be is. -/
def byteOf (v : Value) : Action UInt8 :=
  match v.index? with
  | none => Arguments.refused ("'" ++ v.typeName ++ "' object cannot be interpreted as an integer")
  | some i =>
    match byte? i with
    | some b => return b
    | none => .raise (.plain .value "bytes must be in range(0, 256)")

/-- The bytes that elements of bytes to be are. -/
def bytesOf : List Value → Action (List UInt8)
  | [] => return []
  | v :: rest => do
    let b ← byteOf v
    return b :: (← bytesOf rest)

/-- The bytes that a value is or whose elements they are. A text is none. -/
def bytesIn (v : Value) : Action (List UInt8) := do
  let hasElements := v.text?.isNone && (v.isIterable || match v with
    | .dict _ => true
    | _ => false)
  match v, hasElements with
  | .bytes _ data, _ => return data
  | v, true => do bytesOf (← Action.elements v)
  | v, false => Arguments.refused ("cannot convert '" ++ v.typeName ++ "' object to bytes")

/-- The number that bytes are. -/
def intOfBytes (args : List Value) : Action Int := do
  checkBytesArity "from_bytes" args.length
  match args with
  | [] => Arguments.refused "from_bytes() missing required argument 'bytes' (pos 1)"
  | source :: order =>
    let lowest ← isLowestFirst "from_bytes" order.head?
    let data ← bytesIn source
    return ofHighestFirst (if lowest then data.reverse else data)

/-! ## Hexadecimal text -/

/-- The double that a hexadecimal text denotes. -/
def ofHexText (args : List Value) : Action Value := do
  (Arity.one "float.fromhex").check args.length
  match (args.getD 0 .nil).text? with
  | none => Arguments.refused "bad argument type for built-in operation"
  | some text =>
    match Double.ofHexText text with
    | .ok d => Action.newFloat d
    | .error .malformed => .raise (.plain .value "invalid hexadecimal floating-point string")
    | .error .tooLarge =>
      .raise (.plain .overflow "hexadecimal value too large to represent as a float")

/-! ## All methods -/

/-- The value of a method called on an integer, whose type has this name. -/
def callInt (m : NumberMethod) (typeName : String) (i : Int) (args : List Value) :
    Action Value := do
  match m with
  | .fromBytes => return .int (← intOfBytes args)
  | .toBytes => bytesOfInt i args
  | m =>
    (Arity.none (typeName ++ "." ++ m.name)).check args.length
    match m with
    | .integerRatio => ratio i 1
    | .bitCount => return .int (onesIn i.natAbs)
    | .bitLength => return .int (bitLengthOf i.natAbs)
    | _ => return .int i

/-- The value of a method called on a boolean. What makes an integer of bytes makes a boolean. -/
def callBool (m : NumberMethod) (b : Bool) (args : List Value) : Action Value := do
  match m with
  | .fromBytes => return .bool ((← intOfBytes args) != 0)
  | m => m.callInt "bool" (if b then 1 else 0) args

/-- The value of a method called on a double. -/
def callDouble (m : NumberMethod) (d : Double) (args : List Value) : Action Value := do
  match m with
  | .fromHex => ofHexText args
  | m =>
    (Arity.none ("float." ++ m.name)).check args.length
    match m with
    | .integerRatio =>
      match d, d.ratio? with
      | _, some (num, den) => ratio num den
      | .nan _, none => .raise (.plain .value "cannot convert NaN to integer ratio")
      | _, none => .raise (.plain .overflow "cannot convert Infinity to integer ratio")
    | .hex => return .str d.hexText
    | .isInteger => return .bool d.toInt?.isSome
    | _ => return .float d

end Lisplet.NumberMethod
