import Lisplet.Syntax.Token

/-!
# Writing syntax trees

`Node.render` writes a tree as source text: leaves with the mark of their kind, strings in quotes
with the quote and the backslash escaped, and groups with their items separated by spaces.
-/

namespace Lisplet

/-- A string between quotes, with the quote and the backslash escaped. -/
def quotedSource (cs : List Char) : List Char :=
  '"' :: cs.flatMap (fun c => if c == '"' || c == '\\' then ['\\', c] else [c]) ++ ['"']

/-- The source text of a leaf. -/
def LeafKind.render : LeafKind → List Char → List Char
  | .string, cs => quotedSource cs
  | .key, cs => ':' :: cs
  | .rest, cs => '&' :: cs
  | .number, cs | .identifier, cs | .keyword, cs => cs

/-- The brackets of a group; a root has none. -/
def GroupKind.brackets : GroupKind → List Char × List Char
  | .root => ([], [])
  | .call => (['('], [')'])
  | .array => (['['], [']'])
  | .object => (['\x7b'], ['\x7d'])

namespace Node

variable {α : Type}

mutual

/-- The source text of a node; a host value has none. -/
def render : Node α → List Char
  | .leaf kind text _ => kind.render text.toList
  | .group kind items _ => kind.brackets.1 ++ renderAll items ++ kind.brackets.2
  | .host _ _ _ => []

/-- The source text of nodes side by side. -/
def renderAll : List (Node α) → List Char
  | [] => []
  | [n] => render n
  | n :: ns => render n ++ ' ' :: renderAll ns

end

end Node

end Lisplet
