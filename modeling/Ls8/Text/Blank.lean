/-!
# White space

* `isBlank`: the code points with Unicode's `White_Space` property.
* `trimStart`, `trim`: a line without the blanks at its start, at both ends.
-/

namespace Ls8.Text

/-- The code points of Unicode's `White_Space` property, as closed ranges. Zero-width
characters such as U+200B and U+FEFF are not among them. -/
def blankRanges : List (Nat × Nat) :=
  [(0x09, 0x0D), (0x20, 0x20), (0x85, 0x85), (0xA0, 0xA0), (0x1680, 0x1680),
   (0x2000, 0x200A), (0x2028, 0x2029), (0x202F, 0x202F), (0x205F, 0x205F), (0x3000, 0x3000)]

def isBlank (c : Char) : Bool :=
  blankRanges.any fun range => range.1 ≤ c.toNat && c.toNat ≤ range.2

def trimStart (text : List Char) : List Char := text.dropWhile isBlank

def trimEnd (text : List Char) : List Char := (text.reverse.dropWhile isBlank).reverse

def trim (text : List Char) : List Char := trimEnd (trimStart text)

end Ls8.Text
