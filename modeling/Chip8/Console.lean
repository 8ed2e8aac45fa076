import Chip8.Event
import Chip8.Machine
import Chip8.Screen.Picture

/-!
# The console

A machine in the hands of a host: beside the machine it keeps the record of events and the
framebuffers that resets have replaced. A host may hold views of the screen. A view belongs to
the framebuffer of the time when it was taken: it follows the machine until the next reset and
from then on shows the picture of that moment.
-/

namespace Chip8

/-- A machine, the screens of its earlier lives, the oldest first, and its events, the newest
first. -/
structure Console (ρ : Type) where
  machine : Machine ρ
  retired : Array Screen := #[]
  log : List Event := []

/-- A view taken from a console, known by the number of resets before it was taken. -/
structure HeldView where
  generation : Nat
  deriving DecidableEq

namespace Console

variable {ρ : Type}

/-! ### Operations -/

def step [RandomSource ρ] : Console ρ → Except Report Word × Console ρ
  | ⟨machine, retired, log⟩ =>
    let address := machine.state.pc.val
    let (result, machine) := machine.step
    (result, ⟨machine, retired, Event.ofCycle address result ++ log⟩)

/-- Runs a number of cycles, or fewer if one fails. -/
def stepMany [RandomSource ρ] : Nat → Console ρ → Except Report Unit × Console ρ
  | 0, c => (.ok (), c)
  | n + 1, c =>
    match c.step with
    | (.error r, c) => (.error r, c)
    | (.ok _, c) => stepMany n c

/-- Resets the machine and retires its screen. -/
def reset (c : Console ρ) : Console ρ where
  machine := c.machine.reset
  retired := c.retired.push c.machine.state.screen
  log := .machineReset :: c.log

/-- Presses or releases a key given by number. -/
def setKey (c : Console ρ) (key : Int) (down : Bool) : Except UsageError (Console ρ) := do
  let machine ← c.machine.setKey key down
  return { c with machine := machine }

/-- Replaces the machine's state by hand. -/
def withState (c : Console ρ) (s : State ρ) : Console ρ :=
  { c with machine := { c.machine with state := s } }

/-- The events in the order in which they were recorded. -/
def events (c : Console ρ) : List Event := c.log.reverse

/-! ### Views -/

def view (c : Console ρ) : HeldView := ⟨c.retired.size⟩

/-- What a view shows. -/
def look (c : Console ρ) (v : HeldView) : Screen.View :=
  (c.retired[v.generation]?.getD c.machine.state.screen).view

end Console

end Chip8
