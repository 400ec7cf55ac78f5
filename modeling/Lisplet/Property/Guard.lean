import Lisplet.Store.Action
import Lisplet.Store.Shown
import Lisplet.Numeral
import Lisplet.Text.Letter

/-!
# Guards and indices

Which names a script may not touch, and which keys denote a position in a sequence. A name is
forbidden when it is on the denylist; a property is forbidden also when it begins with two
underscores.
-/

namespace Lisplet.Property

/-- A property name that no script may use, whatever the denylist says. -/
def isReserved (name : String) : Bool := name.toList.take 2 == ['_', '_']

/-- Refuses a name on the denylist. -/
def guardName (name : String) : Action Unit := do
  if (← Action.gets (·.denylist)).contains name then .raise (.forbidden name)

/-- Refuses a property name on the denylist or with two leading underscores. -/
def guardText (name : String) : Action Unit := do
  guardName name
  if isReserved name then .raise (.forbidden name)

/-- Refuses a key that is a forbidden property name. Keys of other types pass. -/
def guardKey (key : Value) : Action Unit :=
  match key.text? with
  | some name => guardText name
  | none => return

/-- Refuses a value on the denylist; only a value that can be a key can be looked up there. -/
def guardValue (name : Value) : Action Unit := do
  match name.text? with
  | some name => guardName name
  | none => discard (Action.keyOf name)

/-- The error for a text that is no number. -/
def numeralFault (e : Numeral.ReadError) : Fault := .plain .value e.message

/-- A text of digits only, at least one. -/
def isDigits (s : String) : Bool := !s.isEmpty && s.toList.all Text.isDigit

/-- The position that a key denotes: an integer, a double equal to one, or a text of digits. -/
def index? (key : Value) : Except Fault (Option Int) :=
  match key with
  | .int i => .ok (some i)
  | .float d => .ok d.toInt?
  | key =>
    match key.text? with
    | some s =>
      if isDigits s then
        match Numeral.readWhole 10 s with
        | .ok i => .ok (some i)
        | .error e => .error (numeralFault e)
      else .ok none
    | none => .ok none

end Lisplet.Property
