import Lisplet.Text.Spans

/-!
# Blanks and line ends

The blank characters, which separate tokens and are trimmed from the ends of texts, and the
smaller set of characters that end a line.
-/

namespace Lisplet.Text

/-- The blank characters of Unicode. -/
def blankSpans : List (Nat × Nat) :=
  [(9, 13), (28, 32), (133, 133), (160, 160), (5760, 5760), (8192, 8202), (8232, 8233),
   (8239, 8239), (8287, 8287), (12288, 12288)]

/-- A blank character. -/
def isBlank (c : Char) : Bool := inSpans blankSpans c

/-- A character that ends a line; a carriage return and the line feed after it end one line. -/
def isLineEnd (c : Char) : Bool :=
  inSpans [(10, 13), (28, 30), (133, 133), (8232, 8233)] c

end Lisplet.Text
