/-!
# Categories of failure

Failures form a tree: every category except the root lies under a broader one, and handling a
category handles all that lie under it. The main statement is `chip8_mem_lineage`: every
lineage ends at the root.
-/

namespace Chip8

/-- The kinds of failure that hosts tell apart. -/
inductive Category where
  | chip8
  | programTooLarge
  | decode
  | unknownInstruction
  | runtime
  | memoryAccess
  | addressOverflow
  | stackOverflow
  | stackUnderflow
  deriving DecidableEq, Repr

namespace Category

def name : Category → String
  | chip8 => "Chip8Error"
  | programTooLarge => "ProgramTooLarge"
  | decode => "DecodeError"
  | unknownInstruction => "UnknownInstruction"
  | runtime => "MachineRuntimeError"
  | memoryAccess => "MemoryAccessError"
  | addressOverflow => "AddressOverflow"
  | stackOverflow => "StackOverflow"
  | stackUnderflow => "StackUnderflow"

/-- Every category, the root first. -/
def all : List Category :=
  [chip8, programTooLarge, decode, unknownInstruction, runtime, memoryAccess, addressOverflow,
    stackOverflow, stackUnderflow]

def ofName? (text : String) : Option Category := all.find? (·.name == text)

/-- The next broader category. -/
def parent? : Category → Option Category
  | chip8 => none
  | programTooLarge | decode | runtime => some chip8
  | unknownInstruction => some decode
  | memoryAccess | stackOverflow | stackUnderflow => some runtime
  | addressOverflow => some memoryAccess

/-- The number of broader categories. -/
def depth : Category → Nat
  | chip8 => 0
  | programTooLarge | decode | runtime => 1
  | unknownInstruction | memoryAccess | stackOverflow | stackUnderflow => 2
  | addressOverflow => 3

theorem depth_parent {c p : Category} (h : c.parent? = some p) : c.depth = p.depth + 1 := by
  cases c <;> simp only [parent?, reduceCtorEq, Option.some.injEq] at h <;> subst h <;> rfl

/-- A category and those above it, up to the root. -/
def lineage (c : Category) : List Category :=
  match _h : c.parent? with
  | none => [c]
  | some p => c :: lineage p
termination_by c.depth
decreasing_by
  have := depth_parent _h
  omega

/-- Every lineage reaches the root. -/
theorem chip8_mem_lineage (c : Category) : chip8 ∈ c.lineage := by
  cases c <;> simp [lineage, parent?]

end Category

end Chip8
