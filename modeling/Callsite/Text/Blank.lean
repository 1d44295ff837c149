import Callsite.Text.Basic

/-!
# White space

The code points that are trimmed from the end of a line: those with the bidirectional types of
white space, of a paragraph or of a segment separator, and the space separators.
-/

namespace Callsite

namespace CodePoint

def blankRanges : List (Nat × Nat) :=
  [(0x09, 0x0D), (0x1C, 0x20), (0x85, 0x85), (0xA0, 0xA0), (0x1680, 0x1680), (0x2000, 0x200A),
    (0x2028, 0x2029), (0x202F, 0x202F), (0x205F, 0x205F), (0x3000, 0x3000)]

def isBlank (c : CodePoint) : Bool := inRanges blankRanges c

end CodePoint

def Text.trimEnd (t : Text) : Text := (t.reverse.dropWhile CodePoint.isBlank).reverse

end Callsite
