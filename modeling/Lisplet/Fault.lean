import Lisplet.Value.Basic
import Lisplet.Syntax.Reader

/-!
# Errors

A `Fault` is the cause of an error. Its kind and its wording follow from the cause. While an error
leaves the calls that were under way it collects one `Frame` for each of them, innermost first; the
text that has been reported for it is kept, so that it is composed only once. The error with its
frames is a `Failure`.
-/

namespace Lisplet

/-- The classes of errors. -/
inductive ErrorKind where
  | language | malformed | unbalanced | undefinedVariable | forbiddenAccess | readOnlyRebind
  | notCallable | notIterable | invalidNode | missingOperand
  | type | value | zeroDivision | overflow | index | missingAttribute | frozenInstance
  | notImplemented
  | memory | runtime | decoding
  /-- A class that only the host uses. -/
  | other (name : String)
  /-- A class that only the host uses, below that of errors about values. -/
  | otherValue (name : String)
  deriving DecidableEq, Repr

namespace ErrorKind

/-- The name of an error class. -/
def name : ErrorKind → String
  | .language => "ClojiError"
  | .malformed => "ClojiSyntaxError"
  | .unbalanced => "UnbalancedBracketError"
  | .undefinedVariable => "UndefinedVariableError"
  | .forbiddenAccess => "ForbiddenAccessError"
  | .readOnlyRebind => "ReadOnlyRebindError"
  | .notCallable => "NotCallableError"
  | .notIterable => "NotIterableError"
  | .invalidNode => "InvalidSyntaxError"
  | .missingOperand => "ClojiArityError"
  | .type => "TypeError"
  | .value => "ValueError"
  | .zeroDivision => "ZeroDivisionError"
  | .overflow => "OverflowError"
  | .index => "IndexError"
  | .missingAttribute => "AttributeError"
  | .frozenInstance => "FrozenInstanceError"
  | .notImplemented => "NotImplementedError"
  | .memory => "MemoryError"
  | .runtime => "RuntimeError"
  | .decoding => "UnicodeDecodeError"
  | .other name | .otherValue name => name

/-- The classes with fixed names. -/
def all : List ErrorKind :=
  [.language, .malformed, .unbalanced, .undefinedVariable, .forbiddenAccess, .readOnlyRebind,
   .notCallable, .notIterable, .invalidNode, .missingOperand, .type, .value, .zeroDivision,
   .overflow, .index, .missingAttribute, .frozenInstance, .notImplemented, .memory, .runtime,
   .decoding]

/-- The error class that has a name. -/
def ofName (name : String) : ErrorKind := (all.find? (·.name == name)).getD (.other name)

/-- The class is one of the language itself and not of the host. -/
def isLanguage : ErrorKind → Bool
  | .language | .malformed | .unbalanced | .undefinedVariable | .forbiddenAccess | .readOnlyRebind
  | .notCallable | .notIterable | .invalidNode | .missingOperand => true
  | _ => false

/-- The class is that of errors about values, or a class below it. -/
def isValue : ErrorKind → Bool
  | .value | .decoding | .otherValue _ => true
  | _ => false

end ErrorKind

/-- The cause of an error. -/
inductive Fault where
  /-- The source is no program. -/
  | malformed (error : SyntaxError)
  /-- A name is bound in no scope. -/
  | undefined (name : String)
  /-- A name or property is on the denylist, or guarded for another reason. -/
  | forbidden (name : String)
  /-- A name that the scope was created with would be defined again. -/
  | readOnly (name : String)
  /-- What is called is no function. -/
  | notFunction (what : String)
  /-- What is constructed from cannot be called. -/
  | notConstructor (what : String)
  /-- What is to be adapted for the host is no closure or form. -/
  | notAdaptable (typeName : String)
  /-- What is spread or taken apart has no elements. -/
  | notIterable (what : String)
  /-- A value that is no node is to be evaluated. -/
  | notNode (shown : String)
  /-- A node of a kind that has no value is to be evaluated. -/
  | notEvaluable (shown : String)
  | emptyCall (line : Int)
  /-- An operand is of a kind that does not fit its place. -/
  | badParameters (kind line : String)
  | badFunctionName (kind line : String)
  | badTarget (kind line : String)
  | badStep (kind line : String)
  /-- A form lacks an operand it needs. -/
  | missingOperand (text : String)
  /-- A property of void or nil is read. -/
  | readOfNothing (key owner : String)
  /-- A property of void or nil is written. -/
  | writeOfNothing (key owner : String)
  | emptyPath
  | emptyReduce
  /-- An operator does not apply to operands of these types. -/
  | unsupported (op left right : String)
  /-- Only a sequence of the same type can be appended. -/
  | cannotConcatenate (sequence other : String)
  /-- Only an integer can say how often a sequence is repeated. -/
  | cannotRepeat (other : String)
  /-- Values of these types have no order. -/
  | unordered (op left right : String)
  | divisionByZero
  | floatDivisionByZero
  | tooLargeForFloat
  | quotientTooLarge
  /-- A value of this type cannot be called. -/
  | notCallable (typeName : String)
  /-- A value of this type has no such attribute. -/
  | noAttribute (typeName name : String)
  /-- A function is called with arguments that do not match its parameters. -/
  | argumentMismatch (text : String)
  | assignmentOutOfRange
  | popFromEmpty
  | notInList (shown : String)
  | substringNotFound
  /-- A value of this type is no dictionary key. -/
  | unhashable (typeName : String)
  | unknownLevel (shown : String)
  /-- The host raised an error with these arguments. -/
  | raised (kind : ErrorKind) (arguments : List Value)
  /-- An error of another class with its text. -/
  | plain (kind : ErrorKind) (text : String)
  deriving Repr

namespace Fault

/-- The class of an error. -/
def kind : Fault → ErrorKind
  | .malformed (.unrecognized _ _ _) => .malformed
  | .malformed _ => .unbalanced
  | .undefined _ => .undefinedVariable
  | .forbidden _ => .forbiddenAccess
  | .readOnly _ => .readOnlyRebind
  | .notFunction _ | .notConstructor _ | .notAdaptable _ => .notCallable
  | .notIterable _ => .notIterable
  | .notNode _ | .notEvaluable _ | .emptyCall _ | .badParameters _ _ | .badFunctionName _ _
  | .badTarget _ _ | .badStep _ _ => .invalidNode
  | .missingOperand _ => .missingOperand
  | .readOfNothing _ _ | .writeOfNothing _ _ | .emptyPath | .emptyReduce | .unsupported _ _ _
  | .cannotConcatenate _ _ | .cannotRepeat _ | .unordered _ _ _ | .notCallable _
  | .argumentMismatch _ | .unhashable _ => .type
  | .divisionByZero | .floatDivisionByZero => .zeroDivision
  | .tooLargeForFloat | .quotientTooLarge => .overflow
  | .noAttribute _ _ => .missingAttribute
  | .assignmentOutOfRange | .popFromEmpty => .index
  | .notInList _ | .substringNotFound | .unknownLevel _ => .value
  | .raised kind _ => kind
  | .plain kind _ => kind

/-- The wording of an error whose text follows from its cause alone. -/
def text : Fault → String
  | .malformed e => e.message
  | .undefined name => name ++ " is not defined"
  | .forbidden name => "Forbidden property " ++ name
  | .readOnly name => "Trying to set readonly variable '" ++ name ++ "'"
  | .notFunction what => what ++ " is not a function"
  | .notConstructor what => what ++ " is not a constructor"
  | .notAdaptable typeName => "jsfn expects a language function, got " ++ typeName
  | .notIterable what => what ++ " is not iterable"
  | .notNode shown => "Invalid node " ++ shown
  | .notEvaluable shown => "Invalid syntax " ++ shown
  | .emptyCall line => "Cannot evaluate an empty expression at line " ++ toString line
  | .badParameters kind line =>
    "fn expects a parameter array, got " ++ kind ++ " at line " ++ line
  | .badFunctionName kind line => "defn expects a name, got " ++ kind ++ " at line " ++ line
  | .badTarget kind line => "Cannot assign to " ++ kind ++ " at line " ++ line
  | .badStep kind line => "Invalid chain step " ++ kind ++ " at line " ++ line
  | .missingOperand text => text
  | .readOfNothing key owner => "Cannot read property " ++ key ++ " of " ++ owner
  | .writeOfNothing key owner => "Cannot set property " ++ key ++ " of " ++ owner
  | .emptyPath => "Cannot assign to an empty property path"
  | .emptyReduce => "reduce of empty sequence with no initial value"
  | .unsupported op left right =>
    "unsupported operand type(s) for " ++ op ++ ": '" ++ left ++ "' and '" ++ right ++ "'"
  | .cannotConcatenate sequence other =>
    "can only concatenate " ++ sequence ++ " (not \"" ++ other ++ "\") to " ++ sequence
  | .cannotRepeat other => "can't multiply sequence by non-int of type '" ++ other ++ "'"
  | .unordered op left right =>
    "'" ++ op ++ "' not supported between instances of '" ++ left ++ "' and '" ++ right ++ "'"
  | .divisionByZero => "division by zero"
  | .floatDivisionByZero => "float division by zero"
  | .tooLargeForFloat => "int too large to convert to float"
  | .quotientTooLarge => "integer division result too large for a float"
  | .notCallable typeName => "'" ++ typeName ++ "' object is not callable"
  | .noAttribute typeName name =>
    "'" ++ typeName ++ "' object has no attribute '" ++ name ++ "'"
  | .argumentMismatch text => text
  | .assignmentOutOfRange => "list assignment index out of range"
  | .popFromEmpty => "pop from empty list"
  | .notInList shown => shown ++ " is not in list"
  | .substringNotFound => "substring not found"
  | .unhashable typeName => "unhashable type: '" ++ typeName ++ "'"
  | .unknownLevel shown => "Unknown level: " ++ shown
  | .raised kind _ => kind.name
  | .plain _ text => text

/-- The arguments an error was raised with: its wording, or what the host gave. -/
def arguments : Fault → List Value
  | .raised _ args => args
  | fault => [.str fault.text]

end Fault

/-- A call that an error has left: the name and the line of its node. -/
structure Frame where
  ident : Option String
  line : Value
  deriving Repr

/-- The line of a node as a value: the one it starts on, or whatever the host gave for it. -/
def lineOf : Expr → Value
  | .leaf _ _ mark => .int mark.line
  | .group _ _ mark => .int mark.line
  | .host _ line _ => line

/-- The frame of a node. -/
def Frame.ofExpr (n : Expr) : Frame := ⟨exprIdent? n, lineOf n⟩

/-- An error on its way. -/
structure Failure where
  fault : Fault
  /-- The calls it has left, innermost first. -/
  trace : List Frame
  /-- The text that was reported for it together with its trace. -/
  report : Option String
  /-- The host raises this very error again and again. -/
  shared : Bool
  deriving Repr

namespace Failure

/-- An error that has just been raised. -/
def fresh (fault : Fault) : Failure := ⟨fault, [], none, false⟩

/-- The class of the error. -/
def kind (f : Failure) : ErrorKind := f.fault.kind

/-- The error after it has left a call. -/
def push (f : Failure) (frame : Frame) : Failure := { f with trace := f.trace ++ [frame] }

/-- The arguments of the error; a report takes the place of the first one. -/
def arguments (f : Failure) : List Value :=
  match f.report with
  | some text => .str text :: f.fault.arguments.drop 1
  | none => f.fault.arguments

end Failure

end Lisplet
