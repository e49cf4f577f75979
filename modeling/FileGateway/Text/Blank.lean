import FileGateway.Text.CodePoints

/-!
# Blanks

The characters with the property White_Space, which names are trimmed of before they count as given
and which may stand between the parts of a written duration.
-/

namespace FileGateway.Text

/-- The code points with the property White_Space. -/
def blankRanges : List (Nat × Nat) :=
  [(0x9, 0xd), (0x20, 0x20), (0x85, 0x85), (0xa0, 0xa0), (0x1680, 0x1680), (0x2000, 0x200a),
   (0x2028, 0x2029), (0x202f, 0x202f), (0x205f, 0x205f), (0x3000, 0x3000)]

/-- Whether `c` is white space. -/
def isBlank (c : Char) : Bool :=
  inRanges blankRanges c

/-- Whether nothing but blanks is left of a text: what trimming turns into the empty text. -/
def allBlank (text : String) : Bool :=
  text.toList.all isBlank

end FileGateway.Text
