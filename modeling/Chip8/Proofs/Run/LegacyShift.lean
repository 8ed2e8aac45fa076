import Chip8.Proofs.Machine.Footprint
import Chip8.Proofs.Run.Twins

/-!
# The two sets in use

The standard and the legacy set differ in what the shifts read. Where every executed shift finds equal
values in its two registers, a run does not depend on the set. The main statement is
`legacyShift_irrelevant`.
-/

namespace Chip8

/-- If the word is a shift, its registers hold the same value. -/
def Word.ShiftsAlike {ρ : Type} (s : State ρ) (w : Word) : Prop :=
  w.family = 0x8 ∧ (w.n = 0x6 ∨ w.n = 0xE) → s.register w.x = s.register w.y

instance {ρ : Type} (s : State ρ) (w : Word) : Decidable (w.ShiftsAlike s) :=
  inferInstanceAs (Decidable (_ → _))

theorem Operation.Selects.eval_legacy {op : Operation} {n : BitVec 4} (h : op.Selects n) {a b : Byte}
    (hab : n = 0x6 ∨ n = 0xE → a = b) : op.eval .legacy a b = op.eval .standard a b := by
  cases h with
  | shiftRight =>
    obtain rfl := hab (.inl rfl)
    rfl
  | shiftLeft =>
    obtain rfl := hab (.inr rfl)
    rfl
  | _ => rfl

namespace Word

variable {ρ : Type} {s : State ρ} {w : Word}

theorem fault?_legacy (s : State ρ) (w : Word) : w.fault? .legacy s = w.fault? .standard s := by
  unfold fault?
  cases Instruction.decode? w <;> rfl

theorem StandsFor.effect_legacy [RandomSource ρ] {i : Instruction} (hw : w.StandsFor i)
    (h : w.ShiftsAlike s) : i.effect .legacy s = i.effect .standard s := by
  cases hw with
  | operate hf hn =>
    have heval := hn.eval_legacy (a := s.register w.x) (b := s.register w.y) fun ho => h ⟨hf, ho⟩
    simp only [Instruction.effect, heval]
  | _ => rfl

theorem effect_legacy [RandomSource ρ] (h : w.ShiftsAlike s) :
    w.effect .legacy s = w.effect .standard s := by
  unfold effect
  cases hd : Instruction.decode? w with
  | none => rfl
  | some i => exact (Instruction.decode?_eq_some_iff.1 hd).effect_legacy h

end Word

namespace Machine

variable {ρ : Type} {m : Machine ρ}

/-- The same machine with the legacy set. -/
def legacy (m : Machine ρ) : Machine ρ := { m with instructions := .legacy }

theorem mirrors_legacy (m : Machine ρ) : Mirrors id m m.legacy := ⟨rfl, rfl, rfl, rfl, rfl⟩

variable [RandomSource ρ]

theorem step_legacy (hset : m.instructions = .standard)
    (h : ∀ w, m.step.1 = .ok w → w.ShiftsAlike m.state) :
    m.legacy.step = (m.step.1, m.step.2.legacy) := by
  have hfault : m.nextWord.fault? .legacy m.fetched = m.nextWord.fault? m.instructions m.fetched := by
    rw [hset]
    exact Word.fault?_legacy m.fetched m.nextWord
  obtain ⟨s, hs, hstep⟩ := m.mirrors_legacy.step (fun _ => hfault) fun hw => by
    rw [hset]
    exact Word.effect_legacy (s := m.fetched) (h m.nextWord hw)
  rw [hstep, hs]
  rfl

theorem twins_legacy {n : Nat} (hset : m.instructions = .standard)
    (h : ∀ i < n, ∀ w, m.call i = .ok w → w.ShiftsAlike (m.cycles i).state) :
    m.Twins m.legacy n := by
  apply Twins.of_commutes (f := legacy) fun _ => ⟨rfl, rfl⟩
  intro i hi
  exact step_legacy ((m.instructions_cycles i).trans hset) (h i hi)

end Machine

namespace Run

/-- If every shift that the run with the standard set executes finds equal values in its registers, the
run with the legacy set has the same result. -/
theorem legacyShift_irrelevant (unseeded : Twister) (image : List Byte) (o : Options)
    (hpolicy : o.unknownInstruction = "halt" ∨ o.unknownInstruction = "skip")
    (hkeys : ∀ key ∈ o.keysDown, 0 ≤ key ∧ key ≤ 15) :
    ∃ standard legacy, run image { o with legacyShift := false } unseeded = .ok standard ∧
      run image { o with legacyShift := true } unseeded = .ok legacy ∧
      ((∀ p m, p.bytes = image → { o with legacyShift := false }.Builds unseeded p m →
        ∀ i < standard.result.steps, ∀ w, m.call i = .ok w → w.ShiftsAlike (m.cycles i).state) →
      legacy.result = standard.result) := by
  cases hp : Program.ofBytes image with
  | error f =>
    exact ⟨_, _, run_of_unloadable hpolicy hp, run_of_unloadable hpolicy hp, fun _ => rfl⟩
  | ok p =>
    obtain rfl := Program.ofBytes_eq_ok_iff.1 hp
    let m : Machine Twister := ⟨p, .standard, o.frequency, o.edgeMode, 0, o.startState unseeded p⟩
    have hb : { o with legacyShift := false }.Builds unseeded p m :=
      Options.builds_iff.2 ⟨hpolicy, hkeys, rfl⟩
    have hb' : { o with legacyShift := true }.Builds unseeded p m.legacy :=
      Options.builds_iff.2 ⟨hpolicy, hkeys, rfl⟩
    obtain ⟨standard, legacy, hrun, hrun', hsame⟩ := runs_of_twins hb hb' rfl rfl
    exact ⟨standard, legacy, hrun, hrun', fun h => hsame (Machine.twins_legacy rfl (h p m rfl hb))⟩

/-- A shift of two registers that both hold 5, then one of the second register into itself. -/
theorem legacyShift_irrelevant_equal :
    let image : List Byte := [0x60, 0x05, 0x61, 0x05, 0x80, 0x16, 0x81, 0x1E, 0x12, 0x08]
    let o : Options := { randomSeed := some 7, keysDown := [3], trace := true }
    let unseeded := Twister.seeded 0
    ∃ standard legacy, run image { o with legacyShift := false } unseeded = .ok standard ∧
      run image { o with legacyShift := true } unseeded = .ok legacy ∧
      (∀ p m, p.bytes = image → { o with legacyShift := false }.Builds unseeded p m →
        ∀ i < standard.result.steps, ∀ w, m.call i = .ok w → w.ShiftsAlike (m.cycles i).state) ∧
      legacy.result = standard.result := by
  intro image o unseeded
  obtain ⟨standard, legacy, hrun, hrun', hsame⟩ :=
    legacyShift_irrelevant unseeded image o (.inl rfl) (by decide)
  obtain ⟨out, hout, hsteps⟩ : ∃ out, run image { o with legacyShift := false } unseeded = .ok out ∧
      out.result.steps = 5 := exists_run_of_toOption Result.steps (by decide +kernel)
  obtain rfl : out = standard := Except.ok.inj (hout.symm.trans hrun)
  have h : ∀ p m, p.bytes = image → { o with legacyShift := false }.Builds unseeded p m →
      ∀ i < out.result.steps, ∀ w, m.call i = .ok w → w.ShiftsAlike (m.cycles i).state := by
    intro p m hp hb
    obtain rfl : p = ⟨image, by decide⟩ := Program.ext hp
    rw [hb.eq, hsteps]
    decide +kernel
  exact ⟨out, legacy, hrun, hrun', h, hsame h⟩

end Run

end Chip8
