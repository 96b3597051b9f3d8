/-!
Sets of characters as ascending lists of code point ranges.
-/
namespace Keymap.Text

/-- Whether a code point lies in one of the ranges, both ends of which count. The ranges ascend, so
the search ends at the first one that starts later. -/
def inRanges : List (Nat × Nat) → Nat → Bool
  | [], _ => false
  | (first, last) :: rest, n => if n < first then false else n ≤ last || inRanges rest n

end Keymap.Text
