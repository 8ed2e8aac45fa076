import Chip8.Text.Numeral
import Chip8.Text.Unassigned

/-!
# Quoted text in messages

A text is quoted with single quotes, or with double quotes when it holds a single quote and no
double one. The quote in use and the backslash are escaped, line feed, carriage return and tab
have short escapes, and the other characters that show no glyph are written by number, as are the
code points that have no character.
-/

namespace Chip8.Quoted

/-- The quote that encloses a text. -/
def quoteFor (text : List Char) : Char :=
  if text.contains '\'' && !text.contains '"' then '"' else '\''

/-- The characters that show no glyph: control and format characters, separators other than the
plain blank, private use. -/
def unseenRanges : List (Nat × Nat) :=
  [(0x00, 0x1F), (0x7F, 0xA0), (0xAD, 0xAD), (0x600, 0x605), (0x61C, 0x61C), (0x6DD, 0x6DD),
    (0x70F, 0x70F), (0x890, 0x891), (0x8E2, 0x8E2), (0x1680, 0x1680), (0x180E, 0x180E),
    (0x2000, 0x200F), (0x2028, 0x202F), (0x205F, 0x2064), (0x2066, 0x206F), (0x3000, 0x3000),
    (0xE000, 0xF8FF), (0xFEFF, 0xFEFF), (0xFFF9, 0xFFFB), (0x110BD, 0x110BD), (0x110CD, 0x110CD),
    (0x13430, 0x13438), (0x1BCA0, 0x1BCA3), (0x1D173, 0x1D17A), (0xE0001, 0xE0001),
    (0xE0020, 0xE007F), (0xF0000, 0xFFFFD), (0x100000, 0x10FFFD)]

theorem unseenRanges_isAscending : Text.isAscending unseenRanges = true := by decide

/-- Is the character written by number? Those that show no glyph are, and so are the code points
that have no character. -/
def isUnseen (c : Char) : Bool := Text.inRanges unseenRanges c || Text.isUnassigned c

/-- A code point in two, four or eight digits, whichever is the least that holds it. -/
def numbered (n : Nat) : List Char :=
  if n < 0x100 then '\\' :: 'x' :: (Numeral.lowerHex 2 n).toList
  else if n < 0x10000 then '\\' :: 'u' :: (Numeral.lowerHex 4 n).toList
  else '\\' :: 'U' :: (Numeral.lowerHex 8 n).toList

def encodeChar (quote c : Char) : List Char :=
  if c = quote || c = '\\' then ['\\', c]
  else if c = '\n' then ['\\', 'n']
  else if c = '\r' then ['\\', 'r']
  else if c = '\t' then ['\\', 't']
  else if isUnseen c then numbered c.toNat
  else [c]

def encode (text : String) : String :=
  let quote := quoteFor text.toList
  String.ofList (quote :: text.toList.flatMap (encodeChar quote) ++ [quote])

end Chip8.Quoted
