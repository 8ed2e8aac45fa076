import Chip8.Proofs.Machine.Bounds
import Mathlib.Algebra.Order.Interval.Finset.SuccPred
import Mathlib.Data.Nat.SuccPred
import Mathlib.Order.Interval.Finset.Nat

/-!
# Successive cycles

A machine that is left to itself. `Machine.cycles` counts the cycles that fail as well; every one of
them leaves the setup as it is and moves the count on by one. `Machine.ticks` counts the ticks of the
timers that fall into a stretch of cycles.
-/

namespace Chip8

namespace Machine

/-! ### Ticks -/

/-- How many cycles behind the `a`-th, up to the `b`-th, end a period of the timers. -/
def ticks (period a b : Nat) : Nat := ((Finset.Ioc a b).filter (period ∣ ·)).card

theorem ticks_self (period a : Nat) : ticks period a a = 0 := by
  simp [ticks]

theorem ticks_succ (period : Nat) {a b : Nat} (h : a ≤ b) :
    ticks period a (b + 1) = ticks period a b + if period ∣ b + 1 then 1 else 0 := by
  unfold ticks
  rw [← Finset.insert_Ioc_right_eq_Ioc_add_one h, Finset.filter_insert]
  by_cases hd : period ∣ b + 1
  · rw [if_pos hd, if_pos hd, Finset.card_insert_of_notMem (by simp)]
  · rw [if_neg hd, if_neg hd, Nat.add_zero]

theorem ticks_eq (period : Nat) {a b : Nat} (h : a ≤ b) :
    ticks period a b = b / period - a / period := by
  induction b, h using Nat.le_induction with
  | base => rw [ticks_self, Nat.sub_self]
  | succ b hb ih =>
    have hle : a / period ≤ b / period := Nat.div_le_div_right hb
    rw [ticks_succ period hb, ih, Nat.succ_div]
    omega

section

variable {ρ : Type}

/-- A timer that has run down since the `a`-th cycle runs down by the next cycle's tick as well. -/
theorem ticked_runDown (m : Machine ρ) {a : Nat} (h : a ≤ m.cycle) (timer : Int) :
    m.ticked (max (timer - ticks (period m.frequency) a m.cycle) 0) =
      max (timer - ticks (period m.frequency) a (m.cycle + 1)) 0 := by
  have hs := ticks_succ (period m.frequency) h
  unfold ticked
  by_cases hd : period m.frequency ∣ m.cycle + 1
  · rw [if_pos (Nat.mod_eq_zero_of_dvd hd)]
    rw [if_pos hd] at hs
    omega
  · rw [if_neg (mt Nat.dvd_of_mod_eq_zero hd)]
    rw [if_neg hd] at hs
    omega

end

/-! ### Cycles -/

variable {ρ : Type} [RandomSource ρ]

/-- The machine after a number of cycles. -/
def cycles (m : Machine ρ) : Nat → Machine ρ
  | 0 => m
  | n + 1 => (m.cycles n).step.2

/-- What the cycle numbered `i + 1` returns. -/
def call (m : Machine ρ) (i : Nat) : Except Report Word := (m.cycles i).step.1

theorem cycles_add (m : Machine ρ) (a b : Nat) : m.cycles (a + b) = (m.cycles a).cycles b := by
  induction b with
  | zero => rfl
  | succ b ih => rw [← Nat.add_assoc, cycles, cycles, ih]

theorem step_after (m : Machine ρ) : ∃ s, m.step.2 = m.after s := by
  have ho := m.step_outcome
  generalize m.step = result at ho ⊢
  cases ho with
  | unfetched | faulted | executed => exact ⟨_, rfl⟩

theorem cycles_setup (m : Machine ρ) (n : Nat) :
    ∃ s, m.cycles n = { m with cycle := m.cycle + n, state := s } := by
  induction n with
  | zero => exact ⟨m.state, rfl⟩
  | succ n ih =>
    obtain ⟨s, hs⟩ := ih
    obtain ⟨t, ht⟩ := (m.cycles n).step_after
    refine ⟨t, ?_⟩
    rw [cycles, ht, hs]
    rfl

@[simp] theorem cycle_cycles (m : Machine ρ) (n : Nat) : (m.cycles n).cycle = m.cycle + n := by
  obtain ⟨s, hs⟩ := m.cycles_setup n
  rw [hs]

@[simp] theorem instructions_cycles (m : Machine ρ) (n : Nat) :
    (m.cycles n).instructions = m.instructions := by
  obtain ⟨s, hs⟩ := m.cycles_setup n
  rw [hs]

theorem instructions_cycles_ne {m : Machine ρ} {set : InstructionSet} (h : m.instructions ≠ set)
    (n : Nat) : (m.cycles n).instructions ≠ set := by
  rwa [instructions_cycles]

@[simp] theorem frequency_cycles (m : Machine ρ) (n : Nat) :
    (m.cycles n).frequency = m.frequency := by
  obtain ⟨s, hs⟩ := m.cycles_setup n
  rw [hs]

theorem bounded_cycles {m : Machine ρ} (h : m.state.Bounded) (n : Nat) :
    (m.cycles n).state.Bounded := by
  induction n with
  | zero => exact h
  | succ n ih => exact bounded_step ih

/-- Cycles that do no more than prepare their fetch leave the state but for the timers, which run down, and
the changed flag. -/
theorem state_cycles_of_prepared {m : Machine ρ} (hb : m.state.Bounded) {n : Nat}
    (h : ∀ i < n, (m.cycles i).step.2 = (m.cycles i).after (m.cycles i).prepared) :
    (m.cycles n).state =
      { m.state with
        delayTimer := max (m.state.delayTimer - ticks (period m.frequency) m.cycle (m.cycle + n)) 0
        soundTimer := max (m.state.soundTimer - ticks (period m.frequency) m.cycle (m.cycle + n)) 0
        screen := { m.state.screen with changed := (m.cycles n).state.screen.changed } } := by
  induction n with
  | zero =>
    have hd := hb.delayTimer
    have hs := hb.soundTimer
    have hd' : max (m.state.delayTimer - (0 : Nat)) 0 = m.state.delayTimer := by omega
    have hs' : max (m.state.soundTimer - (0 : Nat)) 0 = m.state.soundTimer := by omega
    rw [Nat.add_zero, ticks_self, hd', hs']
    rfl
  | succ n ih =>
    have hstate := ih fun i hi => h i (Nat.lt_succ_of_lt hi)
    have htick := (m.cycles n).ticked_runDown (a := m.cycle) (by simp)
    simp only [frequency_cycles, cycle_cycles] at htick
    rw [cycles, h n (Nat.lt_succ_self n)]
    simp only [after, prepared]
    rw [hstate]
    simp only [htick, Screen.settle, Nat.add_assoc]

theorem step_of_report {m : Machine ρ} {r : Report} (h : m.step.1 = .error r) :
    r.step = m.cycle + 1 := by
  have ho := m.step_outcome
  generalize m.step = result at ho h
  cases ho with
  | unfetched | faulted =>
    cases h
    rfl
  | executed => cases h

end Machine

end Chip8
