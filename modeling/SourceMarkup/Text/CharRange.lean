/-!
# Classes of characters as ranges

A standard class of characters is given by the ranges of its code points, in
ascending order, so that a search may stop at the first range beyond the
character.
-/

namespace SourceMarkup

/-- Ranges of code points, each with its first and its last, in ascending
order. -/
abbrev CharRanges := List (Nat × Nat)

namespace CharRanges

def contains : CharRanges → Nat → Bool
  | [], _ => false
  | (first, last) :: ranges, n =>
      if n < first then false
      else if n ≤ last then true
      else contains ranges n

end CharRanges

end SourceMarkup
