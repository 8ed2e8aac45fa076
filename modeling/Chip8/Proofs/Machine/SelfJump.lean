import Chip8.Proofs.Instruction.Table
import Chip8.Proofs.Machine.Cycles

/-!
# Jumps to themselves

A jump that names the address at which it stands is a fixpoint of the cycle but for the count, the
timers and the changed flag. The main statement is `Machine.state_cycles_of_selfJumps`.
-/

namespace Chip8

namespace Machine

variable {ρ : Type} [RandomSource ρ] {m : Machine ρ}

/-- The next cycle executes a jump to the address at which the jump stands. -/
def SelfJumps (m : Machine ρ) : Prop :=
  ∃ w, m.step.1 = .ok w ∧ w.family = 0x1 ∧ w.nnn.toNat = m.state.pc.val

omit [RandomSource ρ] in
theorem fault?_of_jump {w : Word} (hf : w.family = 0x1) (set : InstructionSet) (s : State ρ) :
    w.fault? set s = none := by
  have hd := Instruction.decode?_eq_some_iff.2 (Word.StandsFor.jump hf)
  simp only [Word.fault?, hd, Instruction.fault?, ite_self]

theorem effect_of_jump {w : Word} (hf : w.family = 0x1) {set : InstructionSet} (hset : set ≠ .idle)
    (s : State ρ) : w.effect set s = { s with pc := .ofBits w.nnn } := by
  have hd := Instruction.decode?_eq_some_iff.2 (Word.StandsFor.jump hf)
  simp only [Word.effect, hd, if_neg hset, Instruction.effect]

theorem selfJumps_iff : m.SelfJumps ↔ m.state.pc.val + 1 < memorySize ∧
    m.nextWord.family = 0x1 ∧ m.nextWord.nnn.toNat = m.state.pc.val := by
  have ho := m.step_outcome
  unfold SelfJumps
  generalize m.step = result at ho ⊢
  constructor
  · rintro ⟨w, hw, hf, hn⟩
    cases ho with
    | unfetched | faulted => cases hw
    | executed hp =>
      cases hw
      exact ⟨hp, hf, hn⟩
  · rintro ⟨hp, hf, hn⟩
    cases ho with
    | unfetched hle => exact absurd hp (Nat.not_lt.2 hle)
    | faulted _ hfault =>
      rw [fault?_of_jump hf] at hfault
      cases hfault
    | executed => exact ⟨m.nextWord, rfl, hf, hn⟩

instance (m : Machine ρ) : Decidable m.SelfJumps := decidable_of_iff' _ selfJumps_iff

theorem step_of_selfJumps (hset : m.instructions ≠ .idle) (h : m.SelfJumps) :
    m.step = (.ok m.nextWord, m.after m.prepared) := by
  obtain ⟨hp, hf, hn⟩ := selfJumps_iff.1 h
  have ho := m.step_outcome
  generalize m.step = result at ho ⊢
  cases ho with
  | unfetched hle => exact absurd hp (Nat.not_lt.2 hle)
  | faulted _ hfault =>
    rw [fault?_of_jump hf] at hfault
    cases hfault
  | executed =>
    -- the fetch moves the program counter behind the jump and the jump moves it back
    have hpc : Address.ofBits m.nextWord.nnn = m.state.pc := Address.ext hn
    rw [effect_of_jump hf hset, hpc]
    rfl

theorem selfJumps_step (hset : m.instructions ≠ .idle) (h : m.SelfJumps) :
    m.step.2.SelfJumps := by
  have hj := selfJumps_iff.1 h
  rw [step_of_selfJumps hset h]
  exact selfJumps_iff.2 hj

theorem selfJumps_cycles (hset : m.instructions ≠ .idle) (h : m.SelfJumps) (n : Nat) :
    (m.cycles n).SelfJumps := by
  induction n with
  | zero => exact h
  | succ n ih => exact selfJumps_step (instructions_cycles_ne hset n) ih

theorem state_cycles_of_selfJumps (hset : m.instructions ≠ .idle) (h : m.SelfJumps)
    (hb : m.state.Bounded) (n : Nat) :
    (m.cycles n).state =
      { m.state with
        delayTimer := max (m.state.delayTimer - ticks (period m.frequency) m.cycle (m.cycle + n)) 0
        soundTimer := max (m.state.soundTimer - ticks (period m.frequency) m.cycle (m.cycle + n)) 0
        screen := { m.state.screen with changed := (m.cycles n).state.screen.changed } } := by
  apply state_cycles_of_prepared hb
  intro i _
  rw [step_of_selfJumps (instructions_cycles_ne hset i) (selfJumps_cycles hset h i)]

end Machine

end Chip8
