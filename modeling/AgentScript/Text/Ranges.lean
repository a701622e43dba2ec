/-!
# Sets of code points given by ranges

The tables of character properties are lists of closed ranges in ascending order.
-/

namespace AgentScript.Text

/-- Whether `n` lies in one of the closed ranges.  The ranges ascend, so the search stops at the
first range that begins above `n`. -/
def inRanges : List (Nat × Nat) → Nat → Bool
  | [], _ => false
  | (first, last) :: rest, n =>
    if n < first then false else if n ≤ last then true else inRanges rest n

end AgentScript.Text
