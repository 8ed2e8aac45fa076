import Chip8.Word

/-!
# Instructions

What a word can mean. The two-register operations share one constructor, and so do the six
tests that skip an instruction. `decode?` reads a word: the family nibble decides, and within
families 0, 8, E and F the whole word, the low nibble or the low byte decides further. Families
5 and 9 ignore the low nibble.
-/

namespace Chip8

/-- What an operation on two registers computes. -/
inductive Operation where
  | copy
  | or
  | and
  | xor
  | add
  | sub
  | shiftRight
  | subFrom
  | shiftLeft
  deriving DecidableEq, Repr

/-- A test that decides whether the next instruction is skipped. -/
inductive Condition where
  | equalsConst (x : Register) (k : Byte)
  | differsConst (x : Register) (k : Byte)
  | equals (x y : Register)
  | differs (x y : Register)
  | keyDown (x : Register)
  | keyUp (x : Register)
  deriving DecidableEq, Repr

inductive Instruction where
  /-- Darken the screen. -/
  | clear
  /-- Go to the address on top of the call stack and remove it. -/
  | ret
  | jump (target : BitVec 12)
  /-- Put the address of the next instruction on the call stack and go to the target. -/
  | call (target : BitVec 12)
  /-- Skip the next instruction if the condition holds. -/
  | skip (condition : Condition)
  | setConst (x : Register) (k : Byte)
  /-- Add a constant and leave the flag alone. -/
  | addConst (x : Register) (k : Byte)
  | operate (op : Operation) (x y : Register)
  | setIndex (target : BitVec 12)
  /-- Go to the target plus `V0`. -/
  | jumpOffset (target : BitVec 12)
  /-- Draw a random number and keep the bits of the mask. -/
  | random (x : Register) (mask : Byte)
  /-- Toggle the sprite of some height that starts at the index. -/
  | draw (x y : Register) (height : BitVec 4)
  | readDelay (x : Register)
  /-- Receive the lowest key that is down, or stay at this instruction. -/
  | awaitKey (x : Register)
  | setDelay (x : Register)
  | setSound (x : Register)
  | addIndex (x : Register)
  /-- Point the index at the glyph of a digit. -/
  | glyph (x : Register)
  /-- Store the three decimal digits of a register at the index. -/
  | decimal (x : Register)
  /-- Store `V0` to `Vx` at the index. -/
  | store (x : Register)
  /-- Load `V0` to `Vx` from the index. -/
  | load (x : Register)
  deriving DecidableEq, Repr

/-! ### Reading words -/

/-- The operation that a low nibble selects in family 8. -/
def Operation.ofNibble? : BitVec 4 → Option Operation
  | 0x0 => some copy
  | 0x1 => some or
  | 0x2 => some and
  | 0x3 => some xor
  | 0x4 => some add
  | 0x5 => some sub
  | 0x6 => some shiftRight
  | 0x7 => some subFrom
  | 0xE => some shiftLeft
  | _ => none

namespace Instruction

/-- Family 0, where the whole word counts. -/
def decodeSystem? : Word → Option Instruction
  | 0x00E0 => some clear
  | 0x00EE => some ret
  | _ => none

/-- Family E, where the low byte selects a test of the keypad. -/
def decodeKey? (x : Register) : Byte → Option Instruction
  | 0x9E => some (skip (.keyDown x))
  | 0xA1 => some (skip (.keyUp x))
  | _ => none

/-- Family F, where the low byte selects the instruction. -/
def decodeMisc? (x : Register) : Byte → Option Instruction
  | 0x07 => some (readDelay x)
  | 0x0A => some (awaitKey x)
  | 0x15 => some (setDelay x)
  | 0x18 => some (setSound x)
  | 0x1E => some (addIndex x)
  | 0x29 => some (glyph x)
  | 0x33 => some (decimal x)
  | 0x55 => some (store x)
  | 0x65 => some (load x)
  | _ => none

/-- The instruction that a word stands for. -/
def decode? (w : Word) : Option Instruction :=
  match w.family with
  | 0x0 => decodeSystem? w
  | 0x1 => some (jump w.nnn)
  | 0x2 => some (call w.nnn)
  | 0x3 => some (skip (.equalsConst w.x w.nn))
  | 0x4 => some (skip (.differsConst w.x w.nn))
  | 0x5 => some (skip (.equals w.x w.y))
  | 0x6 => some (setConst w.x w.nn)
  | 0x7 => some (addConst w.x w.nn)
  | 0x8 => (Operation.ofNibble? w.n).map fun op => operate op w.x w.y
  | 0x9 => some (skip (.differs w.x w.y))
  | 0xA => some (setIndex w.nnn)
  | 0xB => some (jumpOffset w.nnn)
  | 0xC => some (random w.x w.nn)
  | 0xD => some (draw w.x w.y w.n)
  | 0xE => decodeKey? w.x w.nn
  | _ => decodeMisc? w.x w.nn

end Instruction

end Chip8
