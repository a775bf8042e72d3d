import SourceMarkup.Text.CharRange

/-!
# White space

`isWhiteSpace` is the `White_Space` property of Unicode. Browsers draw the line
a little differently: they count the byte order mark as white space and the next
line control U+0085 as none. `isBlank` is their class, which trims raw text.
-/

namespace SourceMarkup

namespace Text

def whiteSpaceRanges : CharRanges :=
  [(0x9, 0xD), (0x20, 0x20), (0x85, 0x85), (0xA0, 0xA0), (0x1680, 0x1680),
   (0x2000, 0x200A), (0x2028, 0x2029), (0x202F, 0x202F), (0x205F, 0x205F),
   (0x3000, 0x3000)]

def isWhiteSpace (c : Char) : Bool :=
  whiteSpaceRanges.contains c.toNat

/-- Whether a character is white space to a browser. -/
def isBlank (c : Char) : Bool :=
  (isWhiteSpace c || c == '\ufeff') && c != '\u0085'

end Text

end SourceMarkup
