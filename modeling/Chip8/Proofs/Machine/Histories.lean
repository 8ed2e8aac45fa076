import Chip8.Proofs.Machine.Cycles
import Chip8.Proofs.Machine.Footprint

/-!
# What histories keep and use up

What one command can do to a machine is `Machine.performed`, from which everything that histories
preserve is derived. No command alters what a machine was set up with, and a reset does not rewind the
source of random numbers: after every history the source stands behind the numbers that were drawn,
one for each executed word of the form `CXNN`. The main statements are `Machine.replay_setup` and
`Machine.random_replay`.
-/

namespace Chip8

namespace Word

variable {ρ : Type} [RandomSource ρ] {set : InstructionSet} {s : State ρ} {w : Word}

theorem effect_idle (s : State ρ) (w : Word) : w.effect .idle s = s := by
  unfold effect
  cases Instruction.decode? w <;> rfl

theorem random_effect (h : w.fault? set s = none) :
    (w.effect set s).random = RandomSource.after s.random
      (if set ≠ .idle ∧ w.family = 0xC then 1 else 0) := by
  by_cases hset : set = .idle
  · subst hset
    rw [effect_idle, if_neg (fun hc => hc.1 rfl)]
    rfl
  · obtain ⟨i, hw, -, he⟩ := standsFor_of_fault?_eq_none hset h
    rw [he]
    by_cases hC : w.family = 0xC
    · obtain rfl := hw.unique (.random hC)
      rw [if_pos ⟨hset, hC⟩]
      rfl
    · rw [if_neg (fun hc => hC hc.2)]
      exact Classical.byContradiction fun hr => hC (hw.random_source hr)

end Word

namespace Machine

variable {ρ : Type} [RandomSource ρ]

/-! ### The setup -/

/-- What commands do to a machine: a key alters nothing but the keypad. -/
inductive Performed (m : Machine ρ) : Command → Machine ρ → Prop
  | step : Performed m .step m.step.2
  | press (key : Int) (pad : Keypad) :
    Performed m (.press key) { m with state := { m.state with keypad := pad } }
  | release (key : Int) (pad : Keypad) :
    Performed m (.release key) { m with state := { m.state with keypad := pad } }
  | reset : Performed m .reset m.reset

omit [RandomSource ρ] in
theorem setKey_keypad (m : Machine ρ) (key : Int) (down : Bool) :
    ∃ pad, (m.setKey key down).toOption.getD m =
      { m with state := { m.state with keypad := pad } } := by
  rcases m.setKey_cases key down with he | ⟨k, he⟩
  · exact ⟨m.state.keypad, he⟩
  · exact ⟨m.state.keypad.setKey k down, he⟩

theorem performed (m : Machine ρ) (command : Command) : m.Performed command (m.perform command) := by
  cases command with
  | step => exact .step
  | press key =>
    obtain ⟨pad, he⟩ := m.setKey_keypad key true
    have hp : m.perform (.press key) = { m with state := { m.state with keypad := pad } } := he
    rw [hp]
    exact .press key pad
  | release key =>
    obtain ⟨pad, he⟩ := m.setKey_keypad key false
    have hp : m.perform (.release key) = { m with state := { m.state with keypad := pad } } := he
    rw [hp]
    exact .release key pad
  | reset => exact .reset

theorem perform_setup (m : Machine ρ) (command : Command) :
    ∃ cycle state, m.perform command = { m with cycle := cycle, state := state } := by
  have hp := m.performed command
  generalize m.perform command = m' at hp ⊢
  cases hp with
  | step =>
    obtain ⟨s, hs⟩ := m.step_after
    exact ⟨m.cycle + 1, s, hs⟩
  | press | release => exact ⟨m.cycle, _, rfl⟩
  | reset => exact ⟨0, _, rfl⟩

theorem replay_setup (m : Machine ρ) (history : List Command) :
    ∃ cycle state, m.replay history = { m with cycle := cycle, state := state } := by
  induction history generalizing m with
  | nil => exact ⟨m.cycle, m.state, rfl⟩
  | cons command rest ih =>
    obtain ⟨cycle, state, hm⟩ := m.perform_setup command
    obtain ⟨cycle', state', hr⟩ := ih (m.perform command)
    refine ⟨cycle', state', ?_⟩
    have hc : m.replay (command :: rest) = (m.perform command).replay rest := rfl
    rw [hc, hr, hm]

@[simp] theorem instructions_perform (m : Machine ρ) (command : Command) :
    (m.perform command).instructions = m.instructions := by
  obtain ⟨cycle, state, h⟩ := m.perform_setup command
  rw [h]

@[simp] theorem instructions_replay (m : Machine ρ) (history : List Command) :
    (m.replay history).instructions = m.instructions := by
  obtain ⟨cycle, state, h⟩ := m.replay_setup history
  rw [h]

@[simp] theorem frequency_replay (m : Machine ρ) (history : List Command) :
    (m.replay history).frequency = m.frequency := by
  obtain ⟨cycle, state, h⟩ := m.replay_setup history
  rw [h]

/-! ### The source of random numbers -/

/-- How many numbers a command draws. -/
def draws (m : Machine ρ) : Command → Nat
  | .step =>
    match m.step.1 with
    | .ok w => if m.instructions ≠ .idle ∧ w.family = 0xC then 1 else 0
    | .error _ => 0
  | .press _ => 0
  | .release _ => 0
  | .reset => 0

def drawn (m : Machine ρ) : List Command → Nat
  | [] => 0
  | command :: rest => m.draws command + (m.perform command).drawn rest

theorem random_step (m : Machine ρ) :
    m.step.2.state.random = RandomSource.after m.state.random (m.draws .step) := by
  have ho := m.step_outcome
  unfold draws
  generalize m.step = result at ho ⊢
  cases ho with
  | unfetched | faulted => rfl
  | executed hp hf => exact Word.random_effect hf

theorem random_perform (m : Machine ρ) (command : Command) :
    (m.perform command).state.random = RandomSource.after m.state.random (m.draws command) := by
  have hp := m.performed command
  generalize m.perform command = m' at hp ⊢
  cases hp with
  | step => exact m.random_step
  | press | release | reset => rfl

theorem random_replay (m : Machine ρ) (history : List Command) :
    (m.replay history).state.random = RandomSource.after m.state.random (m.drawn history) := by
  induction history generalizing m with
  | nil => rfl
  | cons command rest ih =>
    have hrest := ih (m.perform command)
    rw [random_perform, RandomSource.after_add] at hrest
    exact hrest

end Machine

end Chip8
