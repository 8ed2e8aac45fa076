/-!
# The layout of the machine

The sizes of memory and call stack, and where the font and programs lie in memory.
-/

namespace Chip8

/-- The number of bytes of the machine's memory. -/
abbrev memorySize : Nat := 4096

/-- The address of the font. -/
abbrev fontStart : Nat := 0x50

/-- The address at which programs are loaded. -/
abbrev programStart : Nat := 0x200

/-- The number of bytes a program may have. -/
abbrev maxProgramSize : Nat := memorySize - programStart

/-- The number of return addresses the call stack holds. -/
abbrev stackSize : Nat := 16

end Chip8
