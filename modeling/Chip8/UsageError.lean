import Chip8.Text.Quoted

/-!
# Refused arguments

What a host can get wrong before the machine does anything: a number that names no word,
register or key, a memory of negative size, an unknown edge mode or policy. These are distinct
from the faults of a running program.
-/

namespace Chip8

/-- Why an argument is refused. -/
inductive UsageError where
  | wordOutOfRange (value : Int)
  | registerOutOfRange (index : Int)
  | keyOutOfRange (key : Int)
  | negativeSize
  | edgeMode (text : String)
  | unknownPolicy (text : String)
  deriving DecidableEq, Repr

def UsageError.message : UsageError → String
  | .wordOutOfRange v => "OpCode out of 16-bit range: " ++ (Numeral.markedHex 0).write v
  | .registerOutOfRange i => "Register id out of range: " ++ toString i
  | .keyOutOfRange k => "Key out of range: " ++ toString k
  | .negativeSize => "negative count"
  | .edgeMode text => Quoted.encode text ++ " is not a valid EdgeMode"
  | .unknownPolicy text => "Unknown instruction policy: " ++ text

end Chip8
