import Lisplet.Text.Letter
import Lisplet.Text.Blank
import Lisplet.Syntax.Node

/-!
# Tokens

Source text is a sequence of tokens with layout (blanks and comments) between them. Each token rule
is a function that gives the length of the token at the start of a text, zero if the rule does not
apply. `rules` lists the rules for leaves in the order in which they are tried; brackets come before
them. `scan` splits a text into its tokens and tells where it stopped.
-/

namespace Lisplet

/-- The three kinds of brackets. -/
inductive Bracket where
  | round | square | curly
  deriving DecidableEq, Repr

namespace Bracket

/-- The opening character. -/
def opener : Bracket → Char
  | .round => '('
  | .square => '['
  | .curly => '\x7b'

/-- The closing character. -/
def closer : Bracket → Char
  | .round => ')'
  | .square => ']'
  | .curly => '\x7d'

/-- The name of the closing character. -/
def closerName : Bracket → String
  | .round => "parenthesis"
  | .square => "bracket"
  | .curly => "brace"

/-- The kind of group that the brackets enclose. -/
def groupKind : Bracket → GroupKind
  | .round => .call
  | .square => .array
  | .curly => .object

/-- The bracket that a character opens. -/
def ofOpener? (c : Char) : Option Bracket := [round, square, curly].find? (·.opener == c)

/-- The bracket that a character closes. -/
def ofCloser? (c : Char) : Option Bracket := [round, square, curly].find? (·.closer == c)

end Bracket

/-- What a token says. -/
inductive Lexeme where
  | opener (bracket : Bracket)
  | closer (bracket : Bracket)
  | leaf (kind : LeafKind) (text : String)
  deriving DecidableEq, Repr

/-- A token and the place where it starts. -/
structure Token where
  lexeme : Lexeme
  /-- One more than the number of line feeds before the token. -/
  line : Nat
  /-- The number of characters before the token. -/
  offset : Nat
  deriving DecidableEq, Repr

namespace Token

/-- A character that identifiers are made of. -/
def isIdentChar (c : Char) : Bool :=
  Text.isWord c || ['.', '+', '-', '*', '/', '=', '<', '>', '"', '\'', '$', '#', '?'].contains c

/-- The number of characters at the start that satisfy a test. -/
def runLength (p : Char → Bool) (cs : List Char) : Nat := (cs.takeWhile p).length

/-- The length of a mark and the characters after it, which must not be missing. -/
def markedLength (mark : Char) (p : Char → Bool) : List Char → Nat
  | c :: cs => if c == mark && runLength p cs != 0 then 1 + runLength p cs else 0
  | [] => 0

/-! ## Layout -/

/-- The length of a comment: two semicolons and the rest of the line. -/
def commentLength : List Char → Nat
  | ';' :: ';' :: cs => 2 + runLength (· != '\n') cs
  | _ => 0

/-- The length of the blanks, or else of the comment, at the start. -/
def layoutLength (cs : List Char) : Nat :=
  if runLength Text.isBlank cs != 0 then runLength Text.isBlank cs else commentLength cs

/-! ## Leaves -/

/-- The number of characters up to and with the closing quote. A backslash hides the character
after it. -/
def closingQuote? : List Char → Option Nat
  | [] => none
  | '"' :: _ => some 1
  | '\\' :: _ :: cs => (closingQuote? cs).map (· + 2)
  | _ :: cs => (closingQuote? cs).map (· + 1)

/-- The length of a quoted string. -/
def stringLength : List Char → Nat
  | '"' :: cs => ((closingQuote? cs).map (· + 1)).getD 0
  | _ => 0

/-- The texts that stand for values. -/
def keywords : List String := ["true", "false", "nil", "void"]

/-- The length of a keyword that no identifier character follows. -/
def keywordLength (cs : List Char) : Nat :=
  match keywords.find? fun w =>
      w.toList.isPrefixOf cs && !(cs.drop w.length).head?.any isIdentChar with
  | some w => w.length
  | none => 0

/-- The length of a key: a colon and word characters. -/
def keyLength : List Char → Nat := markedLength ':' Text.isWord

/-- A digit of base sixteen. -/
def isHexDigit (c : Char) : Bool :=
  Text.isDecimal c || (97 ≤ c.toNat && c.toNat ≤ 102) || (65 ≤ c.toNat && c.toNat ≤ 70)

/-- The length of the exponent part of a decimal. -/
def exponentLength : List Char → Nat
  | c :: cs =>
    if c == 'e' || c == 'E' then
      let sign := match cs with
        | '+' :: _ | '-' :: _ => 1
        | _ => 0
      let digits := runLength Text.isDecimal (cs.drop sign)
      if digits == 0 then 0 else 1 + sign + digits
    else 0
  | [] => 0

/-- The length of a decimal without its exponent part: digits, a point and digits, where the point
needs a digit after it and may do without one before it. -/
def significandLength (cs : List Char) : Nat :=
  let lead := runLength Text.isDecimal cs
  match cs.drop lead with
  | '.' :: more =>
    let fraction := runLength Text.isDecimal more
    if fraction == 0 then lead else lead + 1 + fraction
  | _ => lead

/-- The length of a number, in base sixteen after the mark `0x` and else a decimal. -/
def numberLength (cs : List Char) : Nat :=
  let hex := match cs with
    | '0' :: 'x' :: more => runLength isHexDigit more
    | _ => 0
  if hex != 0 then 2 + hex
  else
    let n := significandLength cs
    if n == 0 then 0 else n + exponentLength (cs.drop n)

/-- The length of a rest: an ampersand and identifier characters. -/
def restLength : List Char → Nat := markedLength '&' isIdentChar

/-- The length of an identifier. -/
def identLength (cs : List Char) : Nat := runLength isIdentChar cs

/-- What the character after a backslash stands for. -/
def escaped (c : Char) : Char :=
  if c == 'n' then '\n' else if c == 't' then '\t' else if c == 'r' then '\r' else c

/-- Replaces every backslash and the character after it by the character they stand for. A
backslash at the end stands for itself. -/
def unescape : List Char → List Char
  | '\\' :: c :: cs => escaped c :: unescape cs
  | c :: cs => c :: unescape cs
  | [] => []

/-- A rule for leaves: how long the token is and which text the leaf gets from it. -/
structure Rule where
  kind : LeafKind
  length : List Char → Nat
  text : List Char → List Char

/-- The rules for leaves in the order in which they are tried. A quote that is never closed does not
start a string, and so belongs to an identifier. -/
def rules : List Rule :=
  [⟨.string, stringLength, fun cs => unescape (cs.drop 1).dropLast⟩,
   ⟨.keyword, keywordLength, id⟩,
   ⟨.key, keyLength, (·.drop 1)⟩,
   ⟨.number, numberLength, id⟩,
   ⟨.rest, restLength, (·.drop 1)⟩,
   ⟨.identifier, identLength, id⟩]

/-- The first leaf rule that applies, with the leaf and its length. -/
def leaf? (cs : List Char) : Option (Lexeme × Nat) :=
  (rules.find? fun r => r.length cs != 0).map fun r =>
    (.leaf r.kind (String.ofList (r.text (cs.take (r.length cs)))), r.length cs)

/-- The token at the start of a text and its length. -/
def lexeme? : List Char → Option (Lexeme × Nat)
  | [] => none
  | c :: cs =>
    match Bracket.ofCloser? c with
    | some b => some (.closer b, 1)
    | none =>
      match Bracket.ofOpener? c with
      | some b => some (.opener b, 1)
      | none => leaf? (c :: cs)

/-! ## Scanning -/

/-- Where a scan ends. -/
inductive Stop where
  /-- At the end of the text, which is on this line. -/
  | finished (line : Nat)
  /-- At a character that starts no token. -/
  | unrecognized (line offset : Nat) (c : Char)
  deriving DecidableEq, Repr

/-- The tokens of a text, and where the scan ended. -/
structure Scan where
  tokens : List Token
  stop : Stop
  deriving DecidableEq, Repr

/-- The number of line feeds in a text. -/
def lineFeeds (cs : List Char) : Nat := cs.count '\n'

/-- Splits a text into its tokens, counting lines and characters on the way. -/
def scanFrom (line offset : Nat) : List Char → Scan
  | [] => ⟨[], .finished line⟩
  | c :: cs =>
    let skip := layoutLength (c :: cs)
    if skip != 0 then
      scanFrom (line + lineFeeds ((c :: cs).take skip)) (offset + skip) (cs.drop (skip - 1))
    else
      match lexeme? (c :: cs) with
      | some (lexeme, n) =>
        let rest := scanFrom (line + lineFeeds ((c :: cs).take n)) (offset + n) (cs.drop (n - 1))
        ⟨⟨lexeme, line, offset⟩ :: rest.tokens, rest.stop⟩
      | none => ⟨[], .unrecognized line offset c⟩
termination_by cs => cs.length
decreasing_by all_goals
  simp only [List.length_drop, List.length_cons]
  omega

/-- Splits a source into its tokens. -/
def scan (source : String) : Scan := scanFrom 1 0 source.toList

end Token

end Lisplet
