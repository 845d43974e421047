/-!
# Ranges of code points

A property of characters is given by the maximal ranges of code points that have it, in increasing
order.
-/

namespace WorkloadSynth

/-- First and last code point of each range, in increasing order. -/
abbrev CodePointRanges := List (Nat × Nat)

/-- Does a character lie in one of the ranges?  The first range that does not end before the
character decides, since the ranges are in increasing order. -/
def CodePointRanges.covers : CodePointRanges → Char → Bool
  | [], _ => false
  | (first, last) :: ranges, c =>
    if c.toNat ≤ last then first ≤ c.toNat else CodePointRanges.covers ranges c

end WorkloadSynth
