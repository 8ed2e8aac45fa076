import Chip8.Fault.Category
import Chip8.Layout
import Chip8.Word

/-!
# Faults

A fault is the reason why loading a program or executing an instruction fails. It carries the
numbers its message shows; category and message are functions of it. A `Report` adds where and
when a running machine met the fault, and a `Diagnostic` is the plain record that hosts
receive.
-/

namespace Chip8

/-! ### Causes -/

/-- Why loading or executing fails. -/
inductive Fault where
  | programTooLarge (size : Nat)
  | unknownInstruction (word : Word)
  | fetchPastEnd (address : Nat)
  | outOfMemory (address length : Int)
  | addressOverflow (value : Int)
  | stackOverflow
  | stackUnderflow
  deriving DecidableEq, Repr

namespace Fault

def category : Fault → Category
  | .programTooLarge _ => .programTooLarge
  | .unknownInstruction _ => .unknownInstruction
  | .fetchPastEnd _ => .memoryAccess
  | .outOfMemory _ _ => .memoryAccess
  | .addressOverflow _ => .addressOverflow
  | .stackOverflow => .stackOverflow
  | .stackUnderflow => .stackUnderflow

/-- Addresses in messages have a mark and at least five characters. -/
def addressStyle : Numeral.Style := Numeral.markedHex 5

/-- The wording of a fault. A block of one byte is named by its address alone, any other by its
first and last address, also when it is empty. -/
def message : Fault → String
  | .programTooLarge size =>
    "Program is " ++ toString size ++ " bytes, limit is " ++ toString maxProgramSize
  | .unknownInstruction w => "Unknown instruction: " ++ w.text
  | .fetchPastEnd a => "Instruction fetch past end of memory: " ++ addressStyle.write a
  | .outOfMemory a len =>
    if len = 1 then "Memory address out of range: " ++ addressStyle.write a
    else "Memory range out of bounds: " ++ addressStyle.write a ++ ".."
      ++ addressStyle.write (a + len - 1)
  | .addressOverflow v => "Address out of 16-bit range: " ++ (Numeral.markedHex 0).write v
  | .stackOverflow => "Call stack exhausted (" ++ toString stackSize ++ " return addresses)"
  | .stackUnderflow => "Return with an empty call stack"

/-- The word that a fault is about, if it is about one. -/
def word? : Fault → Option Word
  | .unknownInstruction w => some w
  | _ => none

end Fault

/-! ### Where a fault occurred -/

/-- What a host learns about a failure: the numbers are zero, and the word absent, where the
failure has no place in a run. -/
structure Diagnostic where
  category : Category
  message : String
  step : Int := 0
  address : Int := 0
  word : Option Int := none
  deriving DecidableEq, Repr

/-- The diagnostic of a fault outside any run. -/
def Fault.diagnostic (f : Fault) : Diagnostic where
  category := f.category
  message := f.message
  word := f.word?.map fun w => (w.toNat : Int)

/-- A fault met by a running machine: the number of the cycle, the address that the instruction
was fetched from, and the word, which is absent when the fetch itself failed. -/
structure Report where
  fault : Fault
  step : Nat
  address : Nat
  word : Option Word
  deriving DecidableEq, Repr

def Report.diagnostic (r : Report) : Diagnostic where
  category := r.fault.category
  message := r.fault.message
  step := r.step
  address := r.address
  word := r.word.map fun w => (w.toNat : Int)

end Chip8
