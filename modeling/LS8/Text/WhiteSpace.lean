/-!
# White space

The characters with the Unicode property `White_Space`.  Among them are all
line ends, the no-break space and the ideographic space; the byte order mark
and the zero-width space are not.
-/

namespace LS8
namespace WhiteSpace

/-- The first and last code points of the ranges of white space. -/
def ranges : List (Nat × Nat) :=
  [(0x0009, 0x000D), (0x0020, 0x0020), (0x0085, 0x0085), (0x00A0, 0x00A0),
    (0x1680, 0x1680), (0x2000, 0x200A), (0x2028, 0x2029), (0x202F, 0x202F),
    (0x205F, 0x205F), (0x3000, 0x3000)]

/-- A character is white space. -/
def contains (character : Char) : Bool :=
  ranges.any fun range =>
    range.1 ≤ character.toNat && character.toNat ≤ range.2

end WhiteSpace
end LS8
