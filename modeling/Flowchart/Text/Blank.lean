import Flowchart.Text.Ranges

/-!
# Blanks

The characters that separate words and are cut off at the ends of a line: the white space of
Unicode 14.0 and the four information separators. The zero width space, the word joiner and
the byte order mark are not among them.
-/

set_option autoImplicit false

namespace Flowchart.Text

def blankRanges : Ranges :=
  [(0x9, 0xd), (0x1c, 0x20), (0x85, 0x85), (0xa0, 0xa0), (0x1680, 0x1680), (0x2000, 0x200a),
   (0x2028, 0x2029), (0x202f, 0x202f), (0x205f, 0x205f), (0x3000, 0x3000)]

def isBlank (c : Char) : Bool := covers blankRanges c.toNat

end Flowchart.Text
