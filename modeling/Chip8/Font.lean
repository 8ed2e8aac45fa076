import Chip8.Layout
import Chip8.Word

/-!
# The hexadecimal font

Sixteen glyphs of five lines, four pixels wide in the high nibble, which every machine holds in
low memory.
-/

namespace Chip8.Font

/-- The number of lines, and so of bytes, of a glyph. -/
def glyphHeight : Nat := 5

/-- The glyphs of the digits 0 to F in order. -/
def glyphs : List (List Byte) :=
  [[0xF0, 0x90, 0x90, 0x90, 0xF0],
    [0x20, 0x60, 0x20, 0x20, 0x70],
    [0xF0, 0x10, 0xF0, 0x80, 0xF0],
    [0xF0, 0x10, 0xF0, 0x10, 0xF0],
    [0x90, 0x90, 0xF0, 0x10, 0x10],
    [0xF0, 0x80, 0xF0, 0x10, 0xF0],
    [0xF0, 0x80, 0xF0, 0x90, 0xF0],
    [0xF0, 0x10, 0x20, 0x40, 0x40],
    [0xF0, 0x90, 0xF0, 0x90, 0xF0],
    [0xF0, 0x90, 0xF0, 0x10, 0xF0],
    [0xF0, 0x90, 0xF0, 0x90, 0x90],
    [0xE0, 0x90, 0xE0, 0x90, 0xE0],
    [0xF0, 0x80, 0x80, 0x80, 0xF0],
    [0xE0, 0x90, 0x90, 0x90, 0xE0],
    [0xF0, 0x80, 0xF0, 0x80, 0xF0],
    [0xF0, 0x80, 0xF0, 0x80, 0x80]]

def table : List Byte := glyphs.flatten

/-- The address of the glyph for the low nibble of a number. -/
def glyphAddress (digit : Int) : Nat := fontStart + (digit % 16).toNat * glyphHeight

theorem length_table : table.length = 80 := rfl

/-- Every glyph address lies inside the font. -/
theorem glyphAddress_lt (digit : Int) : glyphAddress digit < fontStart + table.length := by
  rw [length_table]
  simp only [glyphAddress, fontStart, glyphHeight]
  omega

end Chip8.Font
