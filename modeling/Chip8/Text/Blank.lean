import Chip8.Text.Ranges

/-!
# Blank characters

The characters that separate words in a text: the Unicode characters with the white-space
property and the four information separators. Zero-width characters are not among them.
-/

namespace Chip8.Text

def blankRanges : List (Nat × Nat) :=
  [(0x09, 0x0D), (0x1C, 0x20), (0x85, 0x85), (0xA0, 0xA0), (0x1680, 0x1680), (0x2000, 0x200A),
    (0x2028, 0x2029), (0x202F, 0x202F), (0x205F, 0x205F), (0x3000, 0x3000)]

theorem blankRanges_isAscending : isAscending blankRanges = true := by decide

/-- Does the character separate words? -/
def isBlank (c : Char) : Bool := inRanges blankRanges c

end Chip8.Text
