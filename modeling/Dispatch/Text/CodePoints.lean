/-!
# Sets of characters given by code point ranges

Character classes are data: an ascending list of closed ranges of code points. This file has the
membership test that all of them share.

## Main definitions

* `CodePoints` — an ascending list of closed ranges
* `CodePoints.contains` — whether a character lies in one of the ranges
-/

set_option autoImplicit false

namespace Dispatch.Text

/-- A set of characters: closed ranges of code points, in ascending order and disjoint. -/
abbrev CodePoints := List (Nat × Nat)

namespace CodePoints

/-- Whether a code point lies in one of the ranges. The search stops at the first range that begins
above it, which is sound because the ranges ascend. -/
def containsCode : CodePoints → Nat → Bool
  | [], _ => false
  | (first, last) :: rest, code =>
    if code < first then false else if code ≤ last then true else containsCode rest code

/-- Whether a character lies in one of the ranges. -/
def contains (ranges : CodePoints) (c : Char) : Bool :=
  ranges.containsCode c.toNat

end CodePoints

end Dispatch.Text
