import Chip8.Proofs.Machine.Lockstep

/-!
# What execution depends on

Instructions do not ask whether the screen has changed, and the program counter is set by every
fetch. `State.core` is a state without the two. The main statements are `Word.execute_of_core` and
`Machine.step_core`.
-/

namespace Chip8

/-! ### The changed flag -/

namespace Screen

theorem hitsSprite_settle (s : Screen) (x y : Int) (patterns : List Byte) :
    s.settle.hitsSprite x y patterns = s.hitsSprite x y patterns := by
  cases patterns <;> rfl

theorem settle_flipSprite (s : Screen) (x y : Int) (patterns : List Byte) :
    (s.settle.flipSprite x y patterns).settle = (s.flipSprite x y patterns).settle := by
  cases patterns <;> rfl

end Screen

namespace State

variable {ρ : Type}

def settled (s : State ρ) : State ρ := { s with screen := s.screen.settle }

/-- A state but for its program counter and the changed flag. -/
def core (s : State ρ) : State ρ := { s.settled with pc := .zero }

@[simp] theorem index_settled (s : State ρ) : s.settled.index = s.index := rfl
@[simp] theorem registers_settled (s : State ρ) : s.settled.registers = s.registers := rfl

theorem core_of_settled {s t : State ρ} (h : s.settled = t.settled) : s.core = t.core := by
  rw [core, core, h]

theorem core_tick (s : State ρ) : s.tick.core = s.core.tick := rfl

end State

namespace Instruction

variable {ρ : Type} (s : State ρ) (i : Instruction)

theorem effect_settled [RandomSource ρ] (set : InstructionSet) :
    (i.effect set s.settled).settled = (i.effect set s).settled := by
  cases i with
  | draw x y height =>
    let column := (s.register x).toNat
    let line := (s.register y).toNat
    let sprite := s.sprite height.toNat
    show { s with screen := (s.screen.settle.flipSprite column line sprite).settle }.setFlag
        (s.screen.settle.hitsSprite column line sprite) =
      { s with screen := (s.screen.flipSprite column line sprite).settle }.setFlag
        (s.screen.hitsSprite column line sprite)
    rw [Screen.settle_flipSprite, Screen.hitsSprite_settle]
  | skip condition => cases condition <;> rfl
  | _ => rfl

end Instruction

namespace Word

variable {ρ : Type} {set : InstructionSet} {s t : State ρ} {w : Word}

/-- A word that meets no fault behind its fetch meets none in any state with the same core, once the
program counter is set. -/
theorem execute_of_core [RandomSource ρ] (hcore : s.core = t.core)
    (hf : w.fault? set t = none) :
    ∃ u, w.execute set { s with pc := t.pc } = .ok () u ∧
      u.settled = (w.effect set t).settled := by
  have hs : State.settled { s with pc := t.pc } = t.settled :=
    congrArg (fun u : State ρ => { u with pc := t.pc }) hcore
  have hfault : w.fault? set { s with pc := t.pc } = w.fault? set t :=
    fault?_congr set rfl (congrArg State.index hcore :) (congrArg State.stack hcore :)
      (congrArg State.registers hcore :) (congrArg State.keypad hcore :)
  refine ⟨w.effect set { s with pc := t.pc }, ?_, ?_⟩
  · rw [execute_eq, hfault, hf]
  · exact effect_of_erased set (fun i _ u => i.effect_settled u set) hs

end Word

/-! ### Cycles -/

namespace Machine

variable {ρ : Type} {m : Machine ρ} {s : State ρ} {a : Nat}

theorem core_fetched (m : Machine ρ) :
    m.fetched.core = if period m.frequency ∣ m.cycle + 1 then m.state.tick.core else m.state.core := by
  by_cases hd : period m.frequency ∣ m.cycle + 1
  · have hm := Nat.mod_eq_zero_of_dvd hd
    simp only [fetched, prepared, ticked, if_pos hm, if_pos hd]
    rfl
  · have hm := mt Nat.dvd_of_mod_eq_zero hd
    simp only [fetched, prepared, ticked, if_neg hm, if_neg hd]
    rfl

/-- A state that has ticked along with the machine ticks along with the next cycle. -/
theorem core_tick_iterate (h : a ≤ m.cycle)
    (hcore : (State.tick^[ticks (period m.frequency) a m.cycle] s).core = m.state.core) :
    (State.tick^[ticks (period m.frequency) a (m.cycle + 1)] s).core = m.fetched.core := by
  rw [core_fetched, ticks_succ (period m.frequency) h]
  by_cases hd : period m.frequency ∣ m.cycle + 1
  · rw [if_pos hd, if_pos hd, Function.iterate_succ_apply', State.core_tick, hcore, State.core_tick]
  · rw [if_neg hd, if_neg hd, Nat.add_zero, hcore]

variable [RandomSource ρ]

/-- What a cycle does to the core: if it fails, no more than the timers do; otherwise what its word does
to any state with the same core. -/
theorem step_core (m : Machine ρ) :
    (∃ r, m.step.1 = .error r ∧ m.step.2.state.core = m.fetched.core) ∨
    (∃ w, m.step.1 = .ok w ∧ Address.ofInt (m.state.pc.val + 2) = .ok m.fetched.pc ∧
      ∀ s : State ρ, s.core = m.fetched.core → ∃ u,
        w.execute m.instructions { s with pc := m.fetched.pc } = .ok () u ∧
        u.settled = m.step.2.state.settled) := by
  have ho := m.step_outcome
  generalize m.step = result at ho ⊢
  cases ho with
  | unfetched | faulted => exact .inl ⟨_, rfl, rfl⟩
  | executed h hf =>
    have hpc := pc_fetched h
    refine .inr ⟨_, rfl, ?_, fun s hs => Word.execute_of_core hs hf⟩
    rw [Address.ofInt_eq_ok_iff]
    omega

end Machine

end Chip8
