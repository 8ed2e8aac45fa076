import Chip8.CallStack
import Chip8.Font
import Chip8.Keypad
import Chip8.Memory
import Chip8.Program
import Chip8.Random
import Chip8.Screen

/-!
# The state of a machine

Everything that an instruction may read or alter, the source of random numbers included. Memory
holds the font in its low part and the program from the program start on. The operations here
cannot fail.
-/

namespace Chip8

/-- The registers `V0` to `VF`. -/
abbrev Registers := Vector Byte 16

/-- A machine's state. The timers count down to zero; a host may set them to any integer. -/
structure State (ρ : Type) where
  memory : Memory memorySize
  pc : Address
  index : Address
  stack : CallStack
  delayTimer : Int
  soundTimer : Int
  registers : Registers
  keypad : Keypad
  screen : Screen
  random : ρ

namespace State

variable {ρ : Type}

/-- Memory at power-on. -/
def image (program : Program) : Memory memorySize :=
  ((Memory.blank memorySize).patch fontStart Font.table).patch programStart program.bytes

def powerOn (program : Program) (mode : EdgeMode) (random : ρ) : State ρ where
  memory := image program
  pc := .start
  index := .zero
  stack := .empty
  delayTimer := 0
  soundTimer := 0
  registers := Vector.replicate 16 0
  keypad := Keypad.released
  screen := Screen.blank mode
  random := random

/-! ### Registers -/

def register (s : State ρ) (r : Register) : Byte := s.registers[r]

def setRegister (s : State ρ) (r : Register) (b : Byte) : State ρ :=
  { s with registers := s.registers.set r b }

/-- The flag register as 1 or 0. -/
def setFlag (s : State ρ) (flag : Bool) : State ρ :=
  s.setRegister .flag (if flag then 1 else 0)

/-- The first registers replaced by the given bytes, as many as there are. -/
def setRegisters (s : State ρ) (bytes : List Byte) : State ρ :=
  { s with registers := Vector.ofFn fun r => bytes[r.val]?.getD s.registers[r] }

/-! ### Timers and keys -/

/-- One tick of both timers. -/
def tick (s : State ρ) : State ρ :=
  { s with delayTimer := max (s.delayTimer - 1) 0, soundTimer := max (s.soundTimer - 1) 0 }

/-- Does the sound timer make the machine beep? -/
def beeping (s : State ρ) : Bool := s.soundTimer > 0

def setKey (s : State ρ) (k : Key) (down : Bool) : State ρ :=
  { s with keypad := s.keypad.setKey k down }

/-- Is the key down that the low nibble of a number names? -/
def isKeyDown (s : State ρ) (v : Int) : Bool := s.keypad.isDown (Key.ofNibble v)

/-! ### Summaries -/

/-- What hosts see of a state besides memory and screen. -/
structure Summary where
  pc : Nat
  index : Nat
  depth : Nat
  stack : List Nat
  delayTimer : Int
  soundTimer : Int
  registers : List Nat
  deriving DecidableEq, Repr

def summary (s : State ρ) : Summary where
  pc := s.pc.val
  index := s.index.val
  depth := s.stack.depth
  stack := s.stack.toList.map Address.val
  delayTimer := s.delayTimer
  soundTimer := s.soundTimer
  registers := s.registers.toList.map BitVec.toNat

end State

end Chip8
