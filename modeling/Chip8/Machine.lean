import Chip8.Execution
import Chip8.State.Dump

/-!
# The machine

A machine owns a state and runs it one cycle at a time: it counts the cycle, lets the timers
tick when their period ends, forgets that the screen changed, fetches the word at the program
counter and executes it. A cycle that fails leaves the machine as far as it came. A reset
returns to the power-on state of the same program; the source of random numbers goes on where
it is.
-/

namespace Chip8

/-- The rate at which the timers tick. -/
abbrev timerRate : Int := 60

/-- A machine: what it was set up with, the number of cycles since power-on or reset, and its
state. -/
structure Machine (ρ : Type) where
  program : Program
  instructions : InstructionSet
  frequency : Int
  edgeMode : EdgeMode
  cycle : Nat
  state : State ρ

namespace Machine

variable {ρ : Type}

/-- A machine before its first cycle. -/
def powerOn (program : Program) (instructions : InstructionSet) (frequency : Int)
    (edgeMode : EdgeMode) (random : ρ) : Machine ρ :=
  ⟨program, instructions, frequency, edgeMode, 0, State.powerOn program edgeMode random⟩

/-- The number of cycles between two ticks of the timers, at least one. -/
def period (frequency : Int) : Nat := (max (Int.fdiv frequency timerRate) 1).toNat

/-! ### One cycle -/

/-- What happens to the state before the fetch of a cycle. -/
def prepare (period cycle : Nat) (s : State ρ) : State ρ :=
  let s := if cycle % period = 0 then s.tick else s
  { s with screen := s.screen.settle }

/-- Reads the word at the program counter and moves the program counter behind it. -/
def fetch : Exec ρ Word := do
  let s ← get
  let pc := s.pc.val
  if pc + 1 ≥ memorySize then throw (.fetchPastEnd pc)
  Exec.skipNext
  return Word.ofBytes (s.memory.byteAt pc) (s.memory.byteAt (pc + 1))

/-- Runs one cycle. The result is the word that was executed, or a report of the fault. -/
def step [RandomSource ρ] : Machine ρ → Except Report Word × Machine ρ
  | ⟨program, instructions, frequency, edgeMode, cycle, state⟩ =>
    let cycle := cycle + 1
    let address := state.pc.val
    match fetch (prepare (period frequency) cycle state) with
    | .error fault state =>
      (.error ⟨fault, cycle, address, none⟩,
        ⟨program, instructions, frequency, edgeMode, cycle, state⟩)
    | .ok word state =>
      match word.execute instructions state with
      | .error fault state =>
        (.error ⟨fault, cycle, address, some word⟩,
          ⟨program, instructions, frequency, edgeMode, cycle, state⟩)
      | .ok () state => (.ok word, ⟨program, instructions, frequency, edgeMode, cycle, state⟩)

/-! ### Host operations -/

/-- Presses or releases a key given by number. -/
def setKey (m : Machine ρ) (key : Int) (down : Bool) : Except UsageError (Machine ρ) := do
  let key ← Key.ofInt? key
  return { m with state := m.state.setKey key down }

def press (m : Machine ρ) (key : Int) : Except UsageError (Machine ρ) := m.setKey key true

def release (m : Machine ρ) (key : Int) : Except UsageError (Machine ρ) := m.setKey key false

/-- Back to the power-on state. -/
def reset (m : Machine ρ) : Machine ρ :=
  powerOn m.program m.instructions m.frequency m.edgeMode m.state.random

def description (m : Machine ρ) : String :=
  "Machine(frequency_hz=" ++ toString m.frequency ++ ", cycle=" ++ toString m.cycle ++ ", pc="
    ++ m.state.pc.text ++ ")"

/-- The page that describes the machine's state, under a heading. -/
def dump (m : Machine ρ) : String := "------------ Machine ------------\n" ++ m.state.dump

end Machine

end Chip8
