/-!
# Blank characters

The white space of the Unicode property `White_Space`, and what the rest of the library does
with it: deciding that a text is blank, and trimming it at both ends.
-/

namespace Chartkeeper.Text

/-- The code points of `White_Space`, as closed ranges in ascending order. -/
def blankRanges : List (Nat × Nat) :=
  [(0x09, 0x0D), (0x20, 0x20), (0x85, 0x85), (0xA0, 0xA0), (0x1680, 0x1680), (0x2000, 0x200A),
    (0x2028, 0x2029), (0x202F, 0x202F), (0x205F, 0x205F), (0x3000, 0x3000)]

/-- Whether a character is white space. -/
def isBlank (c : Char) : Bool :=
  blankRanges.any fun r => r.1 ≤ c.toNat && c.toNat ≤ r.2

/-- Whether a text holds nothing but white space. -/
def blank (s : String) : Bool :=
  s.toList.all isBlank

/-- Drops white space from the end. -/
def trimRight (cs : List Char) : List Char :=
  (cs.reverse.dropWhile isBlank).reverse

/-- Drops white space from both ends. -/
def trimChars (cs : List Char) : List Char :=
  trimRight (cs.dropWhile isBlank)

/-- Drops white space from both ends of a text. -/
def trim (s : String) : String :=
  String.ofList (trimChars s.toList)

end Chartkeeper.Text
