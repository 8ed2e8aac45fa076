import Chip8.Fault
import Chip8.Instruction.Assembly

/-!
# Log events

What machines and runs record: every fetched word, resets, the start and the end of a run, and
the unknown words that a run passes over. Severity, origin and text are functions of the event.
-/

namespace Chip8

/-- Why a run ends. -/
inductive StopReason where
  | selfJump
  | stepLimit
  | fault
  deriving DecidableEq, Repr

def StopReason.name : StopReason → String
  | selfJump => "self_jump"
  | stepLimit => "step_limit"
  | fault => "error"

/-- How much an event matters. -/
inductive Severity where
  | debug
  | info
  | warning
  deriving DecidableEq, Repr

def Severity.name : Severity → String
  | debug => "DEBUG"
  | info => "INFO"
  | warning => "WARNING"

/-- Which part of the library an event comes from. -/
inductive Origin where
  | machine
  | run
  deriving DecidableEq, Repr

/-- What is recorded. -/
inductive Event where
  | fetched (address : Nat) (word : Word)
  | machineReset
  | runStarted (size : Nat) (limit frequency : Int)
  | skipped (address : Nat) (word : Word)
  | runStopped (steps : Nat) (message : String)
  | runFinished (steps : Nat) (reason : StopReason)
  deriving DecidableEq, Repr

namespace Event

def severity : Event → Severity
  | fetched _ _ | machineReset => .debug
  | runStarted _ _ _ | runStopped _ _ | runFinished _ _ => .info
  | skipped _ _ => .warning

def origin : Event → Origin
  | fetched _ _ | machineReset => .machine
  | _ => .run

/-- Addresses in events have at least three hexadecimal digits. -/
def addressText (a : Nat) : String := (Numeral.plainHex 3).write a

def text : Event → String
  | fetched a w => addressText a ++ ": " ++ w.text ++ "  " ++ w.disassemble
  | machineReset => "machine reset"
  | runStarted size limit frequency =>
    "running " ++ toString size ++ " byte program for up to " ++ toString limit ++ " steps at "
      ++ toString frequency ++ " Hz"
  | skipped a w => "skipping unknown instruction " ++ w.text ++ " at " ++ addressText a
  | runStopped steps message =>
    "run stopped after " ++ toString steps ++ " steps: " ++ message
  | runFinished steps reason =>
    "run finished after " ++ toString steps ++ " steps (" ++ reason.name ++ ")"

/-- What a cycle at an address records: the word, if one was fetched. -/
def ofCycle (address : Nat) : Except Report Word → List Event
  | .ok w => [.fetched address w]
  | .error r => (r.word.map (fetched address)).toList

end Event

end Chip8
