import Chip8.Run.Session
import Chip8.Screen.Picture

/-!
# Results of runs

`runOn` checks the options, loads the program and runs it. The policy is checked before the
program and the program before the keys. A program that does not fit is no error of the host:
the run has a result, which took no step and has no final state, and nothing is recorded.
-/

namespace Chip8.Run

/-- What a run leaves. -/
structure Result where
  reason : StopReason
  steps : Nat
  finalState : Option State.Summary
  screen : List String
  beeping : Bool
  trace : List TraceRow
  error : Option Diagnostic
  deriving DecidableEq, Repr

/-- Whether a run ended without a fault, as hosts see it. -/
def Result.status (r : Result) : String := if r.error.isNone then "ok" else "error"

/-- The result of a program that cannot be loaded. -/
def Result.unloaded (f : Fault) : Result where
  reason := .fault
  steps := 0
  finalState := none
  screen := []
  beeping := false
  trace := []
  error := some f.diagnostic

namespace Session

variable {ρ : Type}

/-- Why the session stopped. -/
def reason (s : Session ρ) : StopReason :=
  match s.ending with
  | none => .stepLimit
  | some .selfJump => .selfJump
  | some (.fault _) => .fault

/-- The report of the fault that ended the session. -/
def report? (s : Session ρ) : Option Report :=
  match s.ending with
  | some (.fault report) => some report
  | _ => none

/-- The result of a session that has stopped. -/
def result (s : Session ρ) : Result where
  reason := s.reason
  steps := s.steps
  finalState := some s.machine.state.summary
  screen := s.machine.state.screen.picture
  beeping := s.machine.state.beeping
  trace := s.rows.reverse
  error := s.report?.map Report.diagnostic

/-- The event that closes the record of a session. -/
def closingEvent (s : Session ρ) : Event :=
  match s.report? with
  | some report => .runStopped s.steps report.fault.message
  | none => .runFinished s.steps s.reason

end Session

/-- A result and the events of the run. -/
structure Outcome where
  result : Result
  events : List Event
  deriving DecidableEq, Repr

/-- Runs a program image on a source of random numbers. -/
def runOn {ρ : Type} [RandomSource ρ] (source : ρ) (image : List Byte) (o : Options) :
    Except UsageError Outcome := do
  let rules ← o.rules?
  match Program.ofBytes image with
  | .error fault => return ⟨Result.unloaded fault, []⟩
  | .ok program =>
    let machine ← o.machineOn? source program
    let session := Session.run rules o.maxSteps.toNat { machine }
    let opening := Event.runStarted image.length o.maxSteps o.frequency
    return ⟨session.result, opening :: (session.closingEvent :: session.log).reverse⟩

/-- Runs a program image on the source that the options choose. A run without a seed is on the
given one. -/
def run (image : List Byte) (o : Options) (unseeded : Twister := Twister.seeded 0) :
    Except UsageError Outcome :=
  runOn (o.sourceOr unseeded) image o

end Chip8.Run
