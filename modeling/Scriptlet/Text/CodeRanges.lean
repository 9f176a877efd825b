/-!
# Ranges of code points

A character class of the Unicode standard is given by the inclusive ranges of its code points.

- `CodeRanges` : the ranges, in increasing order
- `CodeRanges.contains` : membership of a code point
-/

namespace Scriptlet
namespace Text

abbrev CodeRanges := List (Nat × Nat)

def CodeRanges.contains (ranges : CodeRanges) (code : Nat) : Bool :=
  ranges.any fun range => decide (range.1 ≤ code) && decide (code ≤ range.2)

end Text
end Scriptlet
