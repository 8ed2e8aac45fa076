import Chip8.Instruction

/-!
# Slots and instruction sets

The forms of instructions are numbered from 0 to 33; a form's pattern shows which nibbles of
its words are fixed. An instruction set gives each slot a routine. In the standard set the
shifts act on `Vx` alone, in the legacy set they shift `Vy` into `Vx`, and in the idle set no
instruction has an effect. The main statement is `slot_surjective`: no slot is unused.
-/

namespace Chip8

/-- The number of an instruction form. -/
abbrev Slot := Fin 34

/-! ### Slots -/

def Operation.slot : Operation → Slot
  | copy => 9
  | or => 10
  | and => 11
  | xor => 12
  | add => 13
  | sub => 14
  | shiftRight => 15
  | subFrom => 16
  | shiftLeft => 17

def Condition.slot : Condition → Slot
  | equalsConst _ _ => 4
  | differsConst _ _ => 5
  | equals _ _ => 6
  | differs _ _ => 18
  | keyDown _ => 23
  | keyUp _ => 24

def Instruction.slot : Instruction → Slot
  | clear => 0
  | ret => 1
  | jump _ => 2
  | call _ => 3
  | skip c => c.slot
  | setConst _ _ => 7
  | addConst _ _ => 8
  | operate op _ _ => op.slot
  | setIndex _ => 19
  | jumpOffset _ => 20
  | random _ _ => 21
  | draw _ _ _ => 22
  | readDelay _ => 25
  | awaitKey _ => 26
  | setDelay _ => 27
  | setSound _ => 28
  | addIndex _ => 29
  | glyph _ => 30
  | decimal _ => 31
  | store _ => 32
  | load _ => 33

namespace Slot

/-- The four nibbles of a slot's words: a digit is fixed, a letter is an operand. -/
def patterns : Vector String 34 :=
  #v["00E0", "00EE", "1NNN", "2NNN", "3XNN", "4XNN", "5XY0", "6XNN", "7XNN", "8XY0", "8XY1",
    "8XY2", "8XY3", "8XY4", "8XY5", "8XY6", "8XY7", "8XYE", "9XY0", "ANNN", "BNNN", "CXNN",
    "DXYN", "EX9E", "EXA1", "FX07", "FX0A", "FX15", "FX18", "FX1E", "FX29", "FX33", "FX55",
    "FX65"]

def pattern (s : Slot) : String := patterns[s]

/-- The names of the standard routines. -/
def routines : Vector String 34 :=
  #v["cls", "ret", "jp", "call", "se_const", "sne_const", "se", "ld_const", "add_const", "ld",
    "or", "and", "xor", "add", "sub", "shr", "subn", "shl", "sne", "ld_index", "jp_offset", "rnd",
    "drw", "skp", "sknp", "ld_from_delay", "ld_key", "ld_delay", "ld_sound", "add_index",
    "ld_font", "ld_bcd", "store_registers", "load_registers"]

/-- Does the slot hold a shift? -/
def isShift (s : Slot) : Bool := s == Operation.slot .shiftRight || s == Operation.slot .shiftLeft

end Slot

/-- Every slot belongs to some instruction. -/
theorem Instruction.slot_surjective (s : Slot) : ∃ i : Instruction, i.slot = s := by
  have h : ∀ s : Slot, s ∈ [clear, ret, jump 0, call 0, skip (.equalsConst 0 0),
      skip (.differsConst 0 0), skip (.equals 0 0), setConst 0 0, addConst 0 0,
      operate .copy 0 0, operate .or 0 0, operate .and 0 0, operate .xor 0 0, operate .add 0 0,
      operate .sub 0 0, operate .shiftRight 0 0, operate .subFrom 0 0, operate .shiftLeft 0 0,
      skip (.differs 0 0), setIndex 0, jumpOffset 0, random 0 0, draw 0 0 0, skip (.keyDown 0),
      skip (.keyUp 0), readDelay 0, awaitKey 0, setDelay 0, setSound 0, addIndex 0, glyph 0,
      decimal 0, store 0, load 0].map slot := by decide
  obtain ⟨i, _, hi⟩ := List.mem_map.1 (h s)
  exact ⟨i, hi⟩

/-! ### Sets -/

/-- What the instructions of a machine do. -/
inductive InstructionSet where
  | standard
  | legacy
  | idle
  deriving DecidableEq, Repr

namespace InstructionSet

def ofName? : String → Option InstructionSet
  | "standard" => some standard
  | "legacy" => some legacy
  | "noop" => some idle
  | _ => none

/-- The set whose shifts read `Vy`, or the standard one. -/
def ofLegacyShift (legacyShift : Bool) : InstructionSet := if legacyShift then legacy else standard

/-- The name of the routine that a set gives a slot. -/
def routine (set : InstructionSet) (s : Slot) : String :=
  "execute_" ++ match set with
    | standard => Slot.routines[s]
    | legacy => if s.isShift then Slot.routines[s] ++ "_legacy" else Slot.routines[s]
    | idle => "noop"

/-- The routines of a set in the order of the slots. -/
def routines (set : InstructionSet) : List String := (List.finRange 34).map set.routine

end InstructionSet

end Chip8
