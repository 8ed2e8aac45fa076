import Chip8.Proofs.Machine.Histories

/-!
# Timers

A timer shows the value it was last set to, less the periods that have ended since, whatever has been
executed or has failed meanwhile. Along a history, `Machine.lastSetting` keeps when that was and to
what value. The main statement is `Machine.timers_closed_form`.
-/

namespace Chip8

inductive Timer where
  | delay
  | sound
  deriving DecidableEq, Repr

/-- The low byte of the words that set a timer. -/
def Timer.code : Timer → Byte
  | delay => 0x15
  | sound => 0x18

def State.timer {ρ : Type} (s : State ρ) : Timer → Int
  | .delay => s.delayTimer
  | .sound => s.soundTimer

theorem Word.timer_effect {ρ : Type} [RandomSource ρ] {set : InstructionSet} {s : State ρ} {w : Word}
    (t : Timer) (h : w.fault? set s = none) :
    (w.effect set s).timer t =
      if set ≠ .idle ∧ w.family = 0xF ∧ w.nn = t.code then ((s.register w.x).toNat : Int)
      else s.timer t := by
  by_cases hset : set = .idle
  · subst hset
    rw [effect_idle, if_neg (fun hc => hc.1 rfl)]
  · obtain ⟨i, hw, -, he⟩ := standsFor_of_fault?_eq_none hset h
    rw [he]
    by_cases hc : w.family = 0xF ∧ w.nn = t.code
    · rw [if_pos ⟨hset, hc⟩]
      cases t with
      | delay =>
        obtain rfl := hw.unique (.setDelay hc.1 hc.2)
        rfl
      | sound =>
        obtain rfl := hw.unique (.setSound hc.1 hc.2)
        rfl
    · rw [if_neg (fun hs => hc hs.2)]
      cases t with
      | delay => exact Classical.byContradiction fun hd => hc (hw.delayTimer hd)
      | sound => exact Classical.byContradiction fun hd => hc (hw.soundTimer hd)

/-- When a timer was set, and to what. -/
structure Setting where
  cycle : Nat
  value : Byte
  deriving DecidableEq, Repr

/-- At power-on the timers show zero. -/
def Setting.initial : Setting := ⟨0, 0⟩

namespace Machine

/-! ### The last setting -/

section Settings

variable {ρ : Type} [RandomSource ρ]

/-- The last setting of a timer, after one more command. -/
def setting (t : Timer) (m : Machine ρ) (last : Setting) : Command → Setting
  | .step =>
    match m.step.1 with
    | .ok w =>
      if m.instructions ≠ .idle ∧ w.family = 0xF ∧ w.nn = t.code then
        ⟨m.cycle + 1, m.state.register w.x⟩
      else last
    | .error _ => last
  | .press _ => last
  | .release _ => last
  | .reset => .initial

def lastSetting (t : Timer) (m : Machine ρ) (last : Setting) : List Command → Setting
  | [] => last
  | command :: rest => (m.perform command).lastSetting t (m.setting t last command) rest

end Settings

/-! ### Running down -/

/-- The timer has run down since its last setting. -/
structure RunsDown {ρ : Type} (t : Timer) (m : Machine ρ) (last : Setting) : Prop where
  le : last.cycle ≤ m.cycle
  timer : m.state.timer t =
    max ((last.value.toNat : Int) - ticks (period m.frequency) last.cycle m.cycle) 0

namespace RunsDown

variable {ρ : Type} {t : Timer} {m : Machine ρ} {last : Setting}

theorem powerOn (t : Timer) (program : Program) (set : InstructionSet) (frequency : Int)
    (mode : EdgeMode) (random : ρ) :
    RunsDown t (powerOn program set frequency mode random) .initial where
  le := Nat.le_refl 0
  timer := by
    have hz : ticks (period frequency) 0 0 = 0 := ticks_self _ 0
    cases t <;> simp [Machine.powerOn, State.powerOn, State.timer, Setting.initial, hz]

theorem start (t : Timer) (m : Machine ρ) (value : Byte) (h : m.state.timer t = value.toNat) :
    RunsDown t m ⟨m.cycle, value⟩ where
  le := Nat.le_refl m.cycle
  timer := by
    have hv : (0 : Int) ≤ value.toNat := Int.natCast_nonneg _
    rw [h, ticks_self]
    exact (max_eq_left (by omega)).symm

theorem key (h : RunsDown t m last) (pad : Keypad) :
    RunsDown t { m with state := { m.state with keypad := pad } } last where
  le := h.le
  timer := by
    have ht := h.timer
    cases t <;> exact ht

/-- A cycle that does not set the timer lets it run down, also if it fails. -/
theorem after (h : RunsDown t m last) {s : State ρ} (hs : s.timer t = m.fetched.timer t) :
    RunsDown t (m.after s) last where
  le := Nat.le_succ_of_le h.le
  timer := by
    have hf : m.fetched.timer t = m.ticked (m.state.timer t) := by cases t <;> rfl
    have hd := m.ticked_runDown h.le last.value.toNat
    rw [← h.timer] at hd
    exact (hs.trans hf).trans hd

variable [RandomSource ρ]

theorem step (h : RunsDown t m last) : RunsDown t m.step.2 (m.setting t last .step) := by
  have ho := m.step_outcome
  unfold setting
  generalize m.step = result at ho ⊢
  cases ho with
  | unfetched hp =>
    have hs : m.prepared.timer t = m.fetched.timer t := by cases t <;> rfl
    exact h.after hs
  | faulted hp hf => exact h.after rfl
  | executed hp hf =>
    have ht := Word.timer_effect t hf
    by_cases hc : m.instructions ≠ .idle ∧ m.nextWord.family = 0xF ∧ m.nextWord.nn = t.code
    · -- the tick of this cycle has come before, so the new value starts in full
      rw [if_pos hc] at ht
      simp only [if_pos hc]
      exact start t (m.after _) _ ht
    · rw [if_neg hc] at ht
      simp only [if_neg hc]
      exact h.after ht

theorem perform (h : RunsDown t m last) (command : Command) :
    RunsDown t (m.perform command) (m.setting t last command) := by
  have hp := m.performed command
  generalize m.perform command = m' at hp ⊢
  cases hp with
  | step => exact h.step
  | press key pad | release key pad => exact h.key pad
  | reset => exact powerOn t _ _ _ _ _

theorem replay (h : RunsDown t m last) (history : List Command) :
    RunsDown t (m.replay history) (m.lastSetting t last history) := by
  induction history generalizing m last with
  | nil => exact h
  | cons command rest ih => exact ih (h.perform command)

omit [RandomSource ρ] in
theorem timer_eq (h : RunsDown t m last) :
    m.state.timer t = max 0 ((last.value.toNat : Int) -
      ((m.cycle / period m.frequency : Nat) - (last.cycle / period m.frequency : Nat))) := by
  have ht := h.timer
  have hle : last.cycle / period m.frequency ≤ m.cycle / period m.frequency :=
    Nat.div_le_div_right h.le
  rw [ticks_eq _ h.le] at ht
  omega

end RunsDown

/-! ### The main statement -/

variable {ρ : Type} [RandomSource ρ]

theorem period_eq (frequency : Int) : (period frequency : Int) = max (Int.fdiv frequency 60) 1 := by
  simp only [period, timerRate]
  omega

/-- After every history each timer shows its last setting less the periods that have ended since, but no
less than zero, and the machine beeps as long as the sound timer was set to more than that. -/
theorem timers_closed_form (program : Program) (set : InstructionSet) (frequency : Int)
    (mode : EdgeMode) (random : ρ) (history : List Command) :
    let start := powerOn program set frequency mode random
    let m := start.replay history
    let delay := start.lastSetting .delay .initial history
    let sound := start.lastSetting .sound .initial history
    let p := period frequency
    (p : Int) = max (Int.fdiv frequency 60) 1 ∧
    delay.cycle ≤ m.cycle ∧
    m.state.delayTimer =
      max 0 ((delay.value.toNat : Int) - ((m.cycle / p : Nat) - (delay.cycle / p : Nat))) ∧
    sound.cycle ≤ m.cycle ∧
    m.state.soundTimer =
      max 0 ((sound.value.toNat : Int) - ((m.cycle / p : Nat) - (sound.cycle / p : Nat))) ∧
    (m.state.beeping = true ↔
      (sound.value.toNat : Int) > (m.cycle / p : Nat) - (sound.cycle / p : Nat)) := by
  intro start m delay sound p
  have hrun : ∀ t, RunsDown t m (start.lastSetting t .initial history) := fun t =>
    (RunsDown.powerOn t program set frequency mode random).replay history
  have hfrequency : m.frequency = frequency := start.frequency_replay history
  have hdelay := (hrun .delay).timer_eq
  have hsound := (hrun .sound).timer_eq
  rw [hfrequency] at hdelay hsound
  have hbeep : m.state.beeping = true ↔ m.state.soundTimer > 0 := decide_eq_true_iff
  refine ⟨period_eq frequency, (hrun .delay).le, hdelay, (hrun .sound).le, hsound, ?_⟩
  rw [hbeep]
  have hs : m.state.soundTimer =
    max 0 ((sound.value.toNat : Int) - ((m.cycle / p : Nat) - (sound.cycle / p : Nat))) := hsound
  omega

end Machine

end Chip8
