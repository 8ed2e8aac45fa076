import Chip8.Instruction
import Chip8.Instruction.Set
import Chip8.State

/-!
# Execution

What each instruction does to a state. An instruction that fails throws a fault together with
the state it has reached. Operands are read before anything is altered, and of the registers
the flag is written last, so an instruction that names the flag register as its target leaves
the flag in it.
-/

namespace Chip8

/-- Computations on a state that may fail. -/
abbrev Exec (ρ : Type) := EStateM Fault (State ρ)

namespace Exec

variable {ρ : Type}

/-! ### Address registers and the call stack -/

/-- Moves the program counter by a distance. -/
def advance (delta : Int) : Exec ρ Unit := do
  let pc ← liftExcept ((← get).pc.offset delta)
  modify fun s => { s with pc := pc }

/-- Passes over the next instruction. -/
def skipNext : Exec ρ Unit := advance 2

def setPc (a : Address) : Exec ρ Unit := modify fun s => { s with pc := a }

def setIndex (a : Address) : Exec ρ Unit := modify fun s => { s with index := a }

def push (a : Address) : Exec ρ Unit := do
  let stack ← liftExcept ((← get).stack.push a)
  modify fun s => { s with stack := stack }

def pop : Exec ρ Address := do
  let (a, stack) ← liftExcept (← get).stack.pop
  modify fun s => { s with stack := stack }
  return a

/-! ### Memory -/

def readBlock (address length : Int) : Exec ρ (List Byte) := do
  liftExcept ((← get).memory.readBlock address length)

/-- Stores an image, or nothing when it does not fit. -/
def store (address : Int) (image : List Byte) : Exec ρ Unit := do
  liftExcept (Memory.check memorySize address image.length)
  modify fun s => { s with memory := s.memory.patch address.toNat image }

end Exec

/-! ### Operations and conditions -/

/-- The result of an operation on `Vx` and `Vy` and the flag it sets, if it sets one: carry,
absence of a borrow, or the bit shifted out. -/
def Operation.eval (set : InstructionSet) (op : Operation) (a b : Byte) : Byte × Option Bool :=
  let shifted := if set = .legacy then b else a
  match op with
  | .copy => (b, none)
  | .or => (a ||| b, none)
  | .and => (a &&& b, none)
  | .xor => (a ^^^ b, none)
  | .add => (a + b, some (decide (a.toNat + b.toNat > 0xFF)))
  | .sub => (a - b, some (decide (a ≥ b)))
  | .shiftRight => (shifted >>> 1, some (shifted.getLsbD 0))
  | .subFrom => (b - a, some (decide (b ≥ a)))
  | .shiftLeft => (shifted <<< 1, some shifted.msb)

def Condition.holds {ρ : Type} (s : State ρ) : Condition → Bool
  | .equalsConst x k => s.register x == k
  | .differsConst x k => s.register x != k
  | .equals x y => s.register x == s.register y
  | .differs x y => s.register x != s.register y
  | .keyDown x => s.isKeyDown (s.register x).toNat
  | .keyUp x => !s.isKeyDown (s.register x).toNat

def Byte.decimalDigits (b : Byte) : List Byte := [b / 100, b / 10 % 10, b % 10]

/-! ### Instructions -/

namespace Instruction

variable {ρ : Type} [RandomSource ρ]

/-- Executes an instruction. The program counter already points behind it. -/
def execute (set : InstructionSet) : Instruction → Exec ρ Unit
  | clear => modify fun s => { s with screen := s.screen.clear }
  | ret => do Exec.setPc (← Exec.pop)
  | jump target => Exec.setPc (.ofBits target)
  | call target => do
    Exec.push (← get).pc
    Exec.setPc (.ofBits target)
  | skip condition => do
    if condition.holds (← get) then Exec.skipNext
  | setConst x k => modify (·.setRegister x k)
  | addConst x k => modify fun s => s.setRegister x (s.register x + k)
  | operate op x y => modify fun s =>
    match op.eval set (s.register x) (s.register y) with
    | (result, none) => s.setRegister x result
    | (result, some flag) => (s.setRegister x result).setFlag flag
  | setIndex target => Exec.setIndex (.ofBits target)
  | jumpOffset target => do
    let base := Address.ofBits target
    Exec.setPc (← liftExcept (base.offset ((← get).register .first).toNat))
  | random x mask => modify fun s =>
    let (v, source) := RandomSource.next s.random
    { s with random := source }.setRegister x (Byte.ofInt v &&& mask)
  | draw x y height => do
    let s ← get
    let column := (s.register x).toNat
    let line := (s.register y).toNat
    let sprite ← Exec.readBlock s.index.val height.toNat
    modify fun s =>
      { s with screen := s.screen.flipSprite column line sprite }.setFlag
        (s.screen.hitsSprite column line sprite)
  | readDelay x => modify fun s => s.setRegister x (Byte.ofInt s.delayTimer)
  | awaitKey x => do
    match (← get).keypad.first? with
    | none => Exec.advance (-2)
    | some k => modify (·.setRegister x (BitVec.ofNat 8 k.val))
  | setDelay x => modify fun s => { s with delayTimer := (s.register x).toNat }
  | setSound x => modify fun s => { s with soundTimer := (s.register x).toNat }
  | addIndex x => do
    let s ← get
    Exec.setIndex (← liftExcept (s.index.offset (s.register x).toNat))
  | glyph x => do
    Exec.setIndex (← liftExcept (Address.ofInt (Font.glyphAddress ((← get).register x).toNat)))
  | decimal x => do
    let s ← get
    Exec.store s.index.val (Byte.decimalDigits (s.register x))
  | store x => do
    let s ← get
    Exec.store s.index.val (s.registers.toList.take (x.val + 1))
  | load x => do
    let bytes ← Exec.readBlock (← get).index.val (x.val + 1 : Nat)
    modify (·.setRegisters bytes)

end Instruction

/-- Decodes and executes a word. The idle set refuses unknown words too. -/
def Word.execute {ρ : Type} [RandomSource ρ] (set : InstructionSet) (w : Word) : Exec ρ Unit :=
  match Instruction.decode? w with
  | none => throw (.unknownInstruction w)
  | some i => if set = .idle then pure () else i.execute set

end Chip8
