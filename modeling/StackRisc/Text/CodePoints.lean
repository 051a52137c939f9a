/-!
# StackRisc.Text.CodePoints

Sets of characters as runs of code points.
-/

namespace StackRisc.Text

/-- First and last code point of a run. -/
abbrev CodePointRun := Nat × Nat

/-- Whether a character is in one of some runs. -/
def inRuns (runs : List CodePointRun) (c : Char) : Bool :=
  runs.any fun run => run.1 ≤ c.toNat && c.toNat ≤ run.2

end StackRisc.Text
