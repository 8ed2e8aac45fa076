import Chip8.Fault
import Chip8.Text.Blank
import Chip8.Text.Hex

/-!
# Programs as text

A host sends a program as hexadecimal text in which blanks may stand anywhere. Text that is not
hexadecimal is refused whatever its length, and an image that is too large after that.
-/

namespace Chip8.Web

/-- Why the text of a program is refused. -/
inductive TextError where
  | notHex
  | tooLarge
  deriving DecidableEq, Repr

def TextError.message : TextError → String
  | notHex => "Program must be hexadecimal bytes"
  | tooLarge => "Program size exceeds limit of " ++ toString maxProgramSize ++ " bytes"

/-- The characters of a text that are not blank. -/
def withoutBlanks (text : String) : List Char := text.toList.filter fun c => !Text.isBlank c

/-- The image that a text stands for. -/
def decodeProgram (text : String) : Except TextError (List Byte) :=
  match Hex.decode? (withoutBlanks text) with
  | none => .error .notHex
  | some image => if image.length ≤ maxProgramSize then .ok image else .error .tooLarge

end Chip8.Web
