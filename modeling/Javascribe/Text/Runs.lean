/-
# Tables of code points

A character property is a list of lengths of runs of code points, from the
first code point on: a run without the property, a run with it, and so on.

Key definitions: `Text.inRuns`.
-/

namespace Javascribe
namespace Text

/-- Whether `n` lies in a run with the property. -/
def inRuns : List Nat → Nat → Bool
  | without :: having :: runs, n =>
    without ≤ n && (n < without + having || inRuns runs (n - (without + having)))
  | _, _ => false

end Text
end Javascribe
