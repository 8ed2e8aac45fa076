import Chip8.State

/-!
# Dumps of a state

Texts for debugging: a line with the registers, and a page with the surroundings of program
counter and index in memory and every pixel of the screen.
-/

namespace Chip8.State

variable {ρ : Type}

/-- At least two hexadecimal digits. -/
def byteStyle : Numeral.Style := Numeral.plainHex 2

/-- Texts separated by blanks, in brackets. -/
def bracketed (items : List String) : String := "[" ++ String.intercalate " " items ++ "]"

/-- Two hexadecimal digits for each byte, in brackets. -/
def bytesText (bytes : List Byte) : String :=
  bracketed (bytes.map fun b => Numeral.lowerHex 2 b.toNat)

/-- The four bytes from an address on, fewer at the end of memory. -/
def window (s : State ρ) (a : Address) : String :=
  let style := Numeral.plainHex 3
  "ram[" ++ style.write a.val ++ ".." ++ style.write (a.val + 4 : Nat) ++ "]: "
    ++ bytesText ((s.memory.toList.drop a.val).take 4)

/-- A row as 64 binary digits. -/
def rowBits (row : Row) : String := Numeral.fixed 2 .lower 64 row.toNat

def dumpLines (s : State ρ) : List String :=
  ["pc: " ++ s.pc.text,
    s.window s.pc,
    "i: " ++ s.index.text,
    s.window s.index,
    "sp: " ++ toString s.stack.depth,
    "stack: " ++ bracketed (s.stack.toList.map Address.text),
    "dt: " ++ byteStyle.write s.delayTimer,
    "st: " ++ byteStyle.write s.soundTimer,
    "registers: " ++ bytesText s.registers.toList,
    "screen:"] ++ s.screen.rows.toList.map rowBits

/-- The page of a state: registers, memory and screen. -/
def dump (s : State ρ) : String := String.intercalate "\n" s.dumpLines

def description (s : State ρ) : String :=
  "MachineState(pc=" ++ s.pc.text ++ ", i=" ++ s.index.text ++ ", sp=" ++ toString s.stack.depth
    ++ ", dt=" ++ byteStyle.write s.delayTimer ++ ", st=" ++ byteStyle.write s.soundTimer
    ++ ", v=" ++ bytesText s.registers.toList ++ ")"

end Chip8.State
