import Offside.Text.Ranges

/-!
# White space

The characters that count as blank when a source is asked whether it holds anything at all.
-/

namespace Offside.Text

/-- Code points with the white-space property. -/
def blankRanges : Ranges :=
  [(0x9, 0xD), (0x20, 0x20), (0x85, 0x85), (0xA0, 0xA0), (0x1680, 0x1680), (0x2000, 0x200A),
   (0x2028, 0x2029), (0x202F, 0x202F), (0x205F, 0x205F), (0x3000, 0x3000)]

/-- A white-space character. -/
def isBlank (c : Char) : Bool :=
  blankRanges.contains c

end Offside.Text
