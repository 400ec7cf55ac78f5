import Lisplet.Store.Action

/-!
# Arguments

A signature says what the parameters of a function are called and which of them must be given; an
arity says of a built-in method, whose parameters have no names, how many arguments it takes. A call
whose arguments do not match is an error that names the function.
-/

namespace Lisplet

/-- The parameters of a function. -/
structure Signature where
  name : String
  /-- The parameters that must be given. -/
  required : List String
  /-- The parameters that may be left out. -/
  optional : List String
  /-- Any number of further arguments may follow. -/
  variadic : Bool
  deriving DecidableEq, Repr

/-- The arguments of a call: what was given for each parameter, and what was given beyond them. -/
structure Arguments where
  params : List (Option Value)
  others : List Value

namespace Signature

/-- All parameters in order. -/
def params (sig : Signature) : List String := sig.required ++ sig.optional

/-- Quoted names in a row, with "and" before the last one. -/
def listNames (names : List String) : String :=
  let quoted := names.map fun n => "'" ++ n ++ "'"
  match quoted with
  | [a, b] => a ++ " and " ++ b
  | names =>
    match names.reverse with
    | last :: (before@(_ :: _)) => ", ".intercalate before.reverse ++ ", and " ++ last
    | _ => ", ".intercalate names

/-- The error for parameters that are not given. -/
def missing (sig : Signature) (names : List String) : Fault :=
  .argumentMismatch (sig.name ++ "() missing " ++ toString names.length
    ++ " required positional argument" ++ (if names.length == 1 then "" else "s") ++ ": "
    ++ listNames names)

/-- The error for too many arguments. -/
def surplus (sig : Signature) (given : Nat) : Fault :=
  let least := sig.required.length
  let most := sig.params.length
  let takes :=
    if sig.optional.isEmpty then
      toString most ++ " positional argument" ++ (if most == 1 then "" else "s")
    else "from " ++ toString least ++ " to " ++ toString most ++ " positional arguments"
  .argumentMismatch (sig.name ++ "() takes " ++ takes ++ " but " ++ toString given
    ++ (if given == 1 then " was given" else " were given"))

/-- Accepts a number of arguments that are given by position, or raises an error. -/
def check (sig : Signature) (given : Nat) : Action Unit :=
  if !sig.variadic && sig.params.length < given then .raise (sig.surplus given)
  else if given < sig.required.length then .raise (sig.missing (sig.required.drop given))
  else return

/-- Adds what is given for parameters by name. No parameter can be given twice. -/
def assign (sig : Signature) (slots : List (String × Option Value)) :
    List (String × Value) → Except Fault (List (String × Option Value))
  | [] => .ok slots
  | (name, v) :: rest =>
    match slots.lookup name with
    | none =>
      .error (.argumentMismatch
        (sig.name ++ "() got an unexpected keyword argument '" ++ name ++ "'"))
    | some (some _) =>
      .error (.argumentMismatch
        (sig.name ++ "() got multiple values for argument '" ++ name ++ "'"))
    | some none =>
      sig.assign (slots.map fun slot => if slot.1 == name then (name, some v) else slot) rest

/-- The arguments of a call with values by position and by name. -/
def bind (sig : Signature) (args : List Value) (named : List (String × Value)) :
    Except Fault Arguments := do
  let slots ← sig.assign (sig.params.zipIdx.map fun (name, i) => (name, args[i]?)) named
  let absent := (slots.take sig.required.length).filter (·.2.isNone)
  if !sig.variadic && sig.params.length < args.length then .error (sig.surplus args.length)
  else if !absent.isEmpty then .error (sig.missing (absent.map (·.1)))
  else return ⟨slots.map (·.2), args.drop sig.params.length⟩

end Signature

/-- How many arguments a built-in method takes, and how it words an error about their number. -/
inductive Arity where
  /-- No arguments. -/
  | none (name : String)
  /-- Exactly one argument. -/
  | one (name : String)
  /-- A number of arguments between two bounds. -/
  | expected (name : String) (least most : Nat)
  /-- The same, in other words. -/
  | taking (name : String) (least most : Nat)
  deriving DecidableEq, Repr

namespace Arity

/-- A number of arguments in words. -/
def counted (n : Nat) : String := toString n ++ (if n == 1 then " argument" else " arguments")

/-- The error for a wrong number of arguments. -/
def message (given : Nat) : Arity → String
  | .none name => name ++ "() takes no arguments (" ++ toString given ++ " given)"
  | .one name => name ++ "() takes exactly one argument (" ++ toString given ++ " given)"
  | .expected name least most =>
    let bound :=
      if least == most then counted most
      else if given < least then "at least " ++ counted least
      else "at most " ++ counted most
    name ++ " expected " ++ bound ++ ", got " ++ toString given
  | .taking name least most =>
    let bound := if given < least then "at least " ++ counted least else "at most " ++ counted most
    name ++ "() takes " ++ bound ++ " (" ++ toString given ++ " given)"

/-- The number of arguments is right. -/
def accepts (given : Nat) : Arity → Bool
  | .none _ => given == 0
  | .one _ => given == 1
  | .expected _ least most | .taking _ least most => least ≤ given && given ≤ most

/-- Accepts a number of arguments or raises an error. -/
def check (arity : Arity) (given : Nat) : Action Unit :=
  if arity.accepts given then return else .raise (.plain .type (arity.message given))

end Arity

namespace Arguments

/-- The error for a call with arguments that the function does not take. -/
def refused {α : Type} (text : String) : Action α := .raise (.plain .type text)

/-- The error for a wrong number of arguments. -/
def wrongCount {α : Type} : Action α := refused "wrong number of arguments"

/-- An argument that must be a text. -/
def textOr (v : Value) (complaint : String) : Action (List Char) :=
  match v.text? with
  | some s => return s.toList
  | none => refused complaint

/-- An argument that must be a text. -/
def text (v : Value) : Action (List Char) := textOr v ("must be str, not " ++ v.typeName)

/-- An argument that must be an integer of so many bits. -/
def ofBits (bits : Nat) (typeName : String) (v : Value) : Action Int :=
  match v.index? with
  | some i =>
    let bound : Int := Nat.pow 2 (bits - 1)
    if -bound ≤ i && i < bound then return i
    else .raise (.plain .overflow ("Python int too large to convert to C " ++ typeName))
  | none => refused ("'" ++ v.typeName ++ "' object cannot be interpreted as an integer")

/-- An argument that must be an integer of machine size. -/
def size (v : Value) : Action Int := ofBits 64 "ssize_t" v

/-- An argument that is a switch, on unless it is zero. -/
def switch (v : Value) : Action Bool := do return (← ofBits 32 "int" v) != 0

/-- An argument that bounds a range: nil for no bound, or an integer of any size. -/
def bound (v : Value) : Action (Option Int) :=
  match v with
  | .nil => return none
  | v =>
    match v.index? with
    | some i => return some i
    | none => refused "slice indices must be integers or None or have an __index__ method"

/-- A limit on how often something is done; a negative number sets none. -/
def limit (v : Value) : Action (Option Nat) := do
  let i ← size v
  return if i < 0 then none else some i.toNat

end Arguments

/-- The start and end of a range in a sequence of a given length. Negative bounds count from the
end; bounds beyond an end are moved to it. -/
def clampRange (length : Nat) (start stop : Option Int) : Nat × Nat :=
  let clamp := fun i : Int =>
    let i := if i < 0 then i + length else i
    if i < 0 then 0 else if length < i then length else i.toNat
  ((start.map clamp).getD 0, (stop.map clamp).getD length)

/-- The elements of a range. -/
def sliceOf {α : Type} (items : List α) (start stop : Option Int) : List α :=
  let (lo, hi) := clampRange items.length start stop
  (items.take hi).drop lo

end Lisplet
