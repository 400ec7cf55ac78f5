/-!
# Sets of characters given by ranges

A property of characters that a standard defines by enumeration is kept as a sorted list of code
point ranges. `inSpans` tests a contiguous range and `inRuns` a range that takes every `step`-th
code point, which is how the alternating upper and lower case blocks are written compactly.
-/

namespace Lisplet.Text

/-- The code point lies in one of the closed ranges. -/
def inSpans (spans : List (Nat × Nat)) (c : Char) : Bool :=
  spans.any fun s => s.1 ≤ c.toNat && c.toNat ≤ s.2

/-- The code point is met when counting from `first` to `last` by `step`. -/
def inRun (run : Nat × Nat × Nat) (n : Nat) : Bool :=
  run.1 ≤ n && n ≤ run.2.1 && (n - run.1) % run.2.2 == 0

/-- The code point lies on one of the stepped ranges. -/
def inRuns (runs : List (Nat × Nat × Nat)) (c : Char) : Bool :=
  runs.any (inRun · c.toNat)

end Lisplet.Text
