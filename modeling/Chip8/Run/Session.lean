import Chip8.Event
import Chip8.Run.Options

/-!
# Sessions

A session is a run in progress: the machine, the number of steps taken, the rows of the trace,
the events, and, once the run has ended by itself, how. It ends by a jump to the jump's own
address, if the rules ask for it, or by a fault; an unknown word is no such fault under the
skip policy. The main statement is `run_add`: running in two stretches is running once.
-/

namespace Chip8.Run

/-- One executed instruction: the number of the step, the address and the word, and the index
and the registers after it. -/
structure TraceRow where
  step : Nat
  address : Nat
  word : Word
  index : Nat
  registers : Option (List Nat)
  deriving DecidableEq, Repr

def TraceRow.text (r : TraceRow) : String := r.word.disassemble

/-- The row of a step that returned a word and left a state. -/
def Rules.row {ρ : Type} (rules : Rules) (step address : Nat) (word : Word) (s : State ρ) :
    TraceRow where
  step := step
  address := address
  word := word
  index := s.index.val
  registers := if rules.traceRegisters then some (s.registers.toList.map BitVec.toNat) else none

/-- How a run ends by itself. -/
inductive Ending where
  | selfJump
  | fault (report : Report)
  deriving DecidableEq, Repr

/-- Is the word a jump to the address it stands at? -/
def isSelfJump (w : Word) (address : Nat) : Bool := w.family == 0x1 && w.nnn.toNat == address

/-- A run in progress. Rows and events are kept newest first. -/
structure Session (ρ : Type) where
  machine : Machine ρ
  steps : Nat := 0
  rows : List TraceRow := []
  log : List Event := []
  ending : Option Ending := none

namespace Session

variable {ρ : Type} [RandomSource ρ]

/-- One step. -/
def advance (rules : Rules) : Session ρ → Session ρ
  | ⟨machine, steps, rows, log, _⟩ =>
    let steps := steps + 1
    let address := machine.state.pc.val
    let (result, machine) := machine.step
    let log := Event.ofCycle address result ++ log
    match result with
    | .ok word =>
      let rows := if rules.trace then rules.row steps address word machine.state :: rows else rows
      let stop := rules.stopOnSelfJump && isSelfJump word address
      ⟨machine, steps, rows, log, if stop then some .selfJump else none⟩
    | .error report =>
      match rules.policy, report.fault with
      | .skip, .unknownInstruction word =>
        ⟨machine, steps, rows, .skipped report.address word :: log, none⟩
      | _, _ => ⟨machine, steps, rows, log, some (.fault report)⟩

/-- Up to a number of steps, until the run ends. -/
def run (rules : Rules) : Nat → Session ρ → Session ρ
  | 0, s => s
  | n + 1, s => if s.ending.isSome then s else run rules n (s.advance rules)

theorem run_of_ended (rules : Rules) (n : Nat) {s : Session ρ} (h : s.ending.isSome = true) :
    s.run rules n = s := by
  cases n with
  | zero => rfl
  | succ n => rw [run, if_pos h]

theorem run_add (rules : Rules) (m n : Nat) (s : Session ρ) :
    s.run rules (m + n) = (s.run rules m).run rules n := by
  induction m generalizing s with
  | zero => rw [Nat.zero_add, run]
  | succ m ih =>
    rw [Nat.add_right_comm, run, run]
    split
    · rename_i h
      rw [run_of_ended rules n h]
    · exact ih _

end Session

end Chip8.Run
