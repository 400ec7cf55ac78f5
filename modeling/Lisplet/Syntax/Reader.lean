import Lisplet.Syntax.Token
import Lisplet.Text.Quoted

/-!
# The reader

The reader turns a source into a program: the list of its top-level nodes. It folds over the tokens
of the source with a stack of open brackets. The first token that cannot be placed decides the
error, then a character that starts no token, and last a bracket that is never closed.
-/

namespace Lisplet

/-- Why a source is no program. -/
inductive SyntaxError where
  | unrecognized (line offset : Nat) (c : Char)
  | unexpectedCloser (bracket : Bracket) (line : Nat)
  | unmatchedOpener (bracket : Bracket) (line endLine : Nat)
  deriving DecidableEq, Repr

/-- The wording of a syntax error. -/
def SyntaxError.message : SyntaxError → String
  | .unrecognized line offset c =>
    "Unrecognized token at line " ++ toString line ++ ", position " ++ toString offset ++ ": "
      ++ Text.quoted c.toString ++ ", code " ++ toString c.toNat
  | .unexpectedCloser b line =>
    "Unexpected closing " ++ b.closerName ++ " '" ++ b.closer.toString ++ "' at line "
      ++ toString line
  | .unmatchedOpener b line endLine =>
    "Unmatched opening bracket '" ++ b.opener.toString ++ "' from line " ++ toString line
      ++ " (input ended at line " ++ toString endLine ++ ")"

/-- A source that has been read. -/
structure Program (α : Type) where
  /-- The top-level nodes. -/
  items : List (Node α)
  /-- The line on which the source ends. -/
  line : Nat
  deriving Repr

namespace Reader

variable {α : Type}

/-- A bracket that has been opened and not closed. -/
structure Opened (α : Type) where
  bracket : Bracket
  /-- The token that opened it. -/
  token : Token
  /-- The nodes before the bracket in the enclosing group, last one first. -/
  before : List (Node α)

/-- The state between two tokens. -/
structure State (α : Type) where
  /-- The nodes of the innermost open group, last one first. -/
  items : List (Node α)
  /-- The open brackets, innermost first. -/
  opened : List (Opened α)

/-- The state before the first token. -/
def State.start : State α := ⟨[], []⟩

/-- The mark of a node that starts with a token. Identities count from `base`, two for each
character. -/
def markOf (base : Nat) (t : Token) : Mark := ⟨t.line, base + 2 * t.offset⟩

/-- How many identities the nodes of a source may use. -/
def identities (source : String) : Nat := 2 * (source.length + 1)

/-- Places one token. -/
def step (base : Nat) (s : State α) (t : Token) : Except SyntaxError (State α) :=
  match t.lexeme with
  | .leaf kind text => .ok { s with items := .leaf kind text (markOf base t) :: s.items }
  | .opener b => .ok ⟨[], ⟨b, t, s.items⟩ :: s.opened⟩
  | .closer b =>
    match s.opened with
    | o :: outer =>
      if o.bracket = b then
        .ok ⟨.group b.groupKind s.items.reverse (markOf base o.token) :: o.before, outer⟩
      else .error (.unexpectedCloser b t.line)
    | [] => .error (.unexpectedCloser b t.line)

/-- The program, once all tokens are placed: the scan must have reached the end, and no bracket may
be open. Of several open brackets the outermost one is reported. -/
def finish (stop : Token.Stop) (s : State α) : Except SyntaxError (Program α) :=
  match stop with
  | .unrecognized line offset c => .error (.unrecognized line offset c)
  | .finished endLine =>
    match s.opened.getLast? with
    | some o => .error (.unmatchedOpener o.bracket o.token.line endLine)
    | none => .ok ⟨s.items.reverse, endLine⟩

/-- Reads a source, numbering its nodes from `base` on. -/
def parse (base : Nat) (source : String) : Except SyntaxError (Program α) :=
  let scanned := Token.scan source
  (scanned.tokens.foldlM (step base) State.start) >>= finish scanned.stop

end Reader

end Lisplet
