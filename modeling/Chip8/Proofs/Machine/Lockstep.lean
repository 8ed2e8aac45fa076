import Chip8.Proofs.Instruction.Table
import Chip8.Proofs.Machine.Cycles

/-!
# Two machines in step

Comparing two machines cycle by cycle. If their states are related up to the execution of the next
word, the word meets the same fault in both, and its effects are related, then so are the cycles. In
the most common case one machine is the other with some parts replaced that a fetch does not read. The
main statements are `Machine.Matches.step`, `Machine.Mirrors.step` and `Machine.cycles_of_commutes`.
-/

namespace Chip8

-- a statement about a returned value is decided by computing that value; the priority keeps the
-- instances that run through all words from being tried first
instance (priority := 1100) decidableForallOk {ε α : Type} (result : Except ε α) (P : α → Prop)
    [DecidablePred P] : Decidable (∀ a, result = .ok a → P a) :=
  match result with
  | .ok a => decidable_of_iff (P a) (by simp)
  | .error _ => isTrue (by simp)

/-! ### One word -/

/-- Neither memory, timers, screen nor source decide whether an instruction meets a fault. -/
theorem Instruction.fault?_congr {ρ σ : Type} {s : State ρ} {t : State σ} (hpc : t.pc = s.pc)
    (hindex : t.index = s.index) (hstack : t.stack = s.stack) (hregisters : t.registers = s.registers)
    (hkeypad : t.keypad = s.keypad) (i : Instruction) : i.fault? t = i.fault? s := by
  cases s
  cases t
  subst hpc hindex hstack hregisters hkeypad
  cases i with
  | skip condition => cases condition <;> rfl
  | _ => rfl

namespace Word

variable {ρ σ : Type} {g : State ρ → State ρ} {s : State ρ} {t : State σ} {w : Word}

theorem fault?_of_instruction (set : InstructionSet)
    (h : ∀ i : Instruction, i.fault? t = i.fault? s) : w.fault? set t = w.fault? set s := by
  unfold fault?
  cases Instruction.decode? w with
  | none => rfl
  | some i => simp only [h i]

theorem fault?_congr (set : InstructionSet) (hpc : t.pc = s.pc) (hindex : t.index = s.index)
    (hstack : t.stack = s.stack) (hregisters : t.registers = s.registers)
    (hkeypad : t.keypad = s.keypad) : w.fault? set t = w.fault? set s :=
  fault?_of_instruction set (Instruction.fault?_congr hpc hindex hstack hregisters hkeypad)

theorem effect_related [RandomSource ρ] [RandomSource σ] {R : State ρ → State σ → Prop}
    (set : InstructionSet) (hs : R s t)
    (h : ∀ i, w.StandsFor i → R (i.effect set s) (i.effect set t)) :
    R (w.effect set s) (w.effect set t) := by
  unfold effect
  cases hd : Instruction.decode? w with
  | none => exact hs
  | some i =>
    by_cases hset : set = .idle
    · simp only [if_pos hset]
      exact hs
    · simp only [if_neg hset]
      exact h i (Instruction.decode?_eq_some_iff.1 hd)

theorem effect_of_instruction [RandomSource ρ] (set : InstructionSet)
    (h : ∀ i, w.StandsFor i → i.effect set (g s) = g (i.effect set s)) :
    w.effect set (g s) = g (w.effect set s) :=
  effect_related (R := fun s t => t = g s) set rfl h

/-- States that agree once something is erased from both still do so behind a word that does not look at
it. -/
theorem effect_of_erased [RandomSource ρ] (set : InstructionSet) {s t : State ρ}
    (h : ∀ i, w.StandsFor i → ∀ u, g (i.effect set (g u)) = g (i.effect set u)) (he : g t = g s) :
    g (w.effect set t) = g (w.effect set s) := by
  apply effect_related (R := fun s t : State ρ => g t = g s) set he
  intro i hw
  rw [← h i hw t, he, h i hw s]

end Word

/-! ### Cycles -/

namespace Machine

section

variable {ρ σ : Type} {R : State ρ → State σ → Prop} {m : Machine ρ} {m' : Machine σ}

/-- Up to the execution of the next word, which is the same for both, the states of the machines are
related. -/
structure Matches (R : State ρ → State σ → Prop) (m : Machine ρ) (m' : Machine σ) : Prop where
  cycle : m'.cycle = m.cycle
  pc : m'.state.pc = m.state.pc
  nextWord : m'.nextWord = m.nextWord
  prepared : R m.prepared m'.prepared
  fetched : R m.fetched m'.fetched

/-- The effects of the next word are compared only where the cycle returns the word. -/
theorem Matches.step [RandomSource ρ] [RandomSource σ] (h : Matches R m m')
    (hfault : m.state.pc.val + 1 < memorySize →
      m.nextWord.fault? m'.instructions m'.fetched = m.nextWord.fault? m.instructions m.fetched)
    (heffect : m.step.1 = .ok m.nextWord →
      R (m.nextWord.effect m.instructions m.fetched)
        (m.nextWord.effect m'.instructions m'.fetched)) :
    ∃ s t, R s t ∧ m.step.2 = m.after s ∧ m'.step = (m.step.1, m'.after t) := by
  by_cases hp : m.state.pc.val + 1 < memorySize
  · have hp' : m'.state.pc.val + 1 < memorySize := by rwa [h.pc]
    have hf' : m'.nextWord.fault? m'.instructions m'.fetched =
        m.nextWord.fault? m.instructions m.fetched := by
      rw [h.nextWord, hfault hp]
    cases hf : m.nextWord.fault? m.instructions m.fetched with
    | some f =>
      rw [hf] at hf'
      refine ⟨m.fetched, m'.fetched, h.fetched, by rw [step_of_fault hp hf], ?_⟩
      rw [step_of_fault hp hf, step_of_fault hp' hf', h.cycle, h.pc, h.nextWord]
    | none =>
      rw [hf] at hf'
      have hstep := step_of_no_fault hp hf
      refine ⟨_, _, heffect (by rw [hstep]), by rw [hstep], ?_⟩
      rw [hstep, step_of_no_fault hp' hf', h.nextWord]
  · have hle := Nat.not_lt.1 hp
    have hle' : memorySize ≤ m'.state.pc.val + 1 := by rwa [h.pc]
    refine ⟨m.prepared, m'.prepared, h.prepared, by rw [step_of_le hle], ?_⟩
    rw [step_of_le hle, step_of_le hle', h.cycle, h.pc]

end

variable {ρ : Type} {m m' : Machine ρ} {g : State ρ → State ρ}

/-- Up to the execution of its next word, the machine `m'` is `m` with `g` applied to the state. -/
structure Mirrors (g : State ρ → State ρ) (m m' : Machine ρ) : Prop where
  cycle : m'.cycle = m.cycle
  pc : m'.state.pc = m.state.pc
  nextWord : m'.nextWord = m.nextWord
  prepared : m'.prepared = g m.prepared
  fetched : m'.fetched = g m.fetched

variable [RandomSource ρ]

theorem Mirrors.step (h : Mirrors g m m')
    (hfault : m.state.pc.val + 1 < memorySize →
      m.nextWord.fault? m'.instructions (g m.fetched) =
        m.nextWord.fault? m.instructions m.fetched)
    (heffect : m.step.1 = .ok m.nextWord →
      m.nextWord.effect m'.instructions (g m.fetched) =
        g (m.nextWord.effect m.instructions m.fetched)) :
    ∃ s, m.step.2 = m.after s ∧ m'.step = (m.step.1, m'.after (g s)) := by
  have hm : Matches (fun s t => t = g s) m m' :=
    ⟨h.cycle, h.pc, h.nextWord, h.prepared, h.fetched⟩
  rw [← h.fetched] at hfault heffect
  obtain ⟨s, t, rfl, hs, hstep⟩ := hm.step hfault heffect
  exact ⟨s, hs, hstep⟩

/-- If each of the first cycles commutes with a map of machines, the machines stay images of each
other, and their cycles return the same. -/
theorem cycles_of_commutes {f : Machine ρ → Machine ρ} {n : Nat}
    (h : ∀ i < n, (f (m.cycles i)).step = ((m.cycles i).step.1, f (m.cycles i).step.2)) :
    (∀ i ≤ n, (f m).cycles i = f (m.cycles i)) ∧ ∀ i < n, (f m).call i = m.call i := by
  have hcycles : ∀ i ≤ n, (f m).cycles i = f (m.cycles i) := by
    intro i hi
    induction i with
    | zero => rfl
    | succ i ih => rw [cycles, ih (Nat.le_of_succ_le hi), h i hi, cycles]
  refine ⟨hcycles, fun i hi => ?_⟩
  rw [call, hcycles i (Nat.le_of_lt hi), h i hi, call]

end Machine

end Chip8
