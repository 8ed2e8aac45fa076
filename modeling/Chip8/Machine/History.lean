import Chip8.Machine

/-!
# Histories

What hosts do to a machine, as data: a history is a list of commands. A cycle that fails and a
key that does not exist leave a machine in which the history goes on. The main statements are
`replay_append` and `reachable_iff`.
-/

namespace Chip8

/-- One thing a host does to a machine. -/
inductive Command where
  | step
  | press (key : Int)
  | release (key : Int)
  | reset
  deriving DecidableEq, Repr

namespace Machine

variable {ρ : Type} [RandomSource ρ]

def perform (m : Machine ρ) : Command → Machine ρ
  | .step => m.step.2
  | .press key => (m.press key).toOption.getD m
  | .release key => (m.release key).toOption.getD m
  | .reset => m.reset

def replay (m : Machine ρ) (history : List Command) : Machine ρ := history.foldl perform m

/-- The machines that histories lead to from power-on. -/
inductive Reachable : Machine ρ → Prop
  | powerOn (program : Program) (instructions : InstructionSet) (frequency : Int)
      (edgeMode : EdgeMode) (random : ρ) :
      Reachable (powerOn program instructions frequency edgeMode random)
  | perform {m : Machine ρ} (command : Command) : Reachable m → Reachable (m.perform command)

theorem replay_append (m : Machine ρ) (first second : List Command) :
    m.replay (first ++ second) = (m.replay first).replay second := by
  simp [replay]

theorem Reachable.replay {m : Machine ρ} (h : Reachable m) (history : List Command) :
    Reachable (m.replay history) := by
  induction history generalizing m with
  | nil => exact h
  | cons command rest ih => exact ih (.perform command h)

/-- A machine is reachable if a history leads to it from power-on. -/
theorem reachable_iff {m : Machine ρ} :
    Reachable m ↔ ∃ program instructions frequency edgeMode random history,
      m = (Machine.powerOn program instructions frequency edgeMode (random : ρ)).replay history := by
  constructor
  · intro h
    induction h with
    | powerOn program instructions frequency edgeMode random =>
      exact ⟨program, instructions, frequency, edgeMode, random, [], rfl⟩
    | perform command _ ih =>
      obtain ⟨program, instructions, frequency, edgeMode, random, history, rfl⟩ := ih
      refine ⟨program, instructions, frequency, edgeMode, random, history ++ [command], ?_⟩
      rw [replay_append]
      rfl
  · rintro ⟨program, instructions, frequency, edgeMode, random, history, rfl⟩
    exact Reachable.replay (.powerOn program instructions frequency edgeMode random) history

end Machine

end Chip8
