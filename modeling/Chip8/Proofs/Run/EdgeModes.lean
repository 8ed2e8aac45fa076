import Chip8.Proofs.Machine.Overlay
import Chip8.Proofs.Run.Twins
import Chip8.Proofs.Screen.RightEdge

/-!
# The two edge modes in use

Where no sprite that a run draws sets a pixel beyond the right edge, the run does not depend on the edge
mode of the screen. The main statement is `edgeMode_irrelevant`.
-/

namespace Chip8

/-- If the word draws, its sprite sets no pixel beyond the right edge. -/
def Word.DrawsInside {ρ : Type} (s : State ρ) (w : Word) : Prop :=
  w.family = 0xD → (s.drawn w).StaysInside

instance {ρ : Type} (s : State ρ) (w : Word) : Decidable (w.DrawsInside s) :=
  inferInstanceAs (Decidable (_ → _))

/-! ### One instruction -/

namespace State

variable {ρ : Type}

def wrapped (s : State ρ) : State ρ := { s with screen := s.screen.wrapped }

end State

namespace Word

variable {ρ : Type} {s : State ρ} {w : Word}

theorem fault?_wrapped (set : InstructionSet) (s : State ρ) (w : Word) :
    w.fault? set s.wrapped = w.fault? set s :=
  fault?_congr set rfl rfl rfl rfl rfl

variable [RandomSource ρ]

theorem StandsFor.effect_wrapped {i : Instruction} (hw : w.StandsFor i) (set : InstructionSet)
    (hs : s.screen.edgeMode = .clip) (h : w.DrawsInside s) :
    i.effect set s.wrapped = (i.effect set s).wrapped := by
  cases hw with
  | draw hf =>
    obtain ⟨hflip, hhits⟩ :=
      Screen.flipSprite_wrapped hs (h hf).mask_eq (s.register w.y).toNat
    let t := s.drawn w
    let y : Int := (s.register w.y).toNat
    show { s with screen := s.screen.wrapped.flipSprite t.x y t.patterns }.setFlag
        (s.screen.wrapped.hitsSprite t.x y t.patterns) =
      ({ s with screen := s.screen.flipSprite t.x y t.patterns }.setFlag
        (s.screen.hitsSprite t.x y t.patterns)).wrapped
    rw [hflip, hhits]
    rfl
  | _ => rfl

theorem effect_wrapped (set : InstructionSet) (hs : s.screen.edgeMode = .clip)
    (h : w.DrawsInside s) : w.effect set s.wrapped = (w.effect set s).wrapped := by
  apply effect_of_instruction (g := State.wrapped)
  intro i hw
  exact hw.effect_wrapped set hs h

end Word

/-! ### Cycles -/

namespace Machine

variable {ρ : Type} {m : Machine ρ}

/-- The same machine with a screen that wraps. -/
def wrapped (m : Machine ρ) : Machine ρ := { m with edgeMode := .wrap, state := m.state.wrapped }

theorem mirrors_wrapped (m : Machine ρ) : Mirrors State.wrapped m m.wrapped :=
  ⟨rfl, rfl, rfl, rfl, rfl⟩

variable [RandomSource ρ]

theorem edgeMode_step (m : Machine ρ) :
    m.step.2.state.screen.edgeMode = m.state.screen.edgeMode := by
  have ho := m.step_outcome
  generalize m.step = result at ho ⊢
  cases ho with
  | unfetched | faulted => rfl
  | executed hp hf =>
    show (m.nextWord.effect m.instructions m.fetched).screen.edgeMode = m.fetched.screen.edgeMode
    unfold Word.effect
    cases Instruction.decode? m.nextWord with
    | none => rfl
    | some i =>
      by_cases hset : m.instructions = .idle
      · simp only [if_pos hset]
      · simp only [if_neg hset]
        exact edgeMode_effect m.instructions i m.fetched

theorem edgeMode_cycles (m : Machine ρ) (n : Nat) :
    (m.cycles n).state.screen.edgeMode = m.state.screen.edgeMode := by
  induction n with
  | zero => rfl
  | succ n ih => rw [cycles, edgeMode_step, ih]

theorem step_wrapped (hs : m.state.screen.edgeMode = .clip)
    (h : ∀ w, m.step.1 = .ok w → w.DrawsInside m.state) :
    m.wrapped.step = (m.step.1, m.step.2.wrapped) := by
  obtain ⟨s, hafter, hstep⟩ := m.mirrors_wrapped.step
    (fun _ => Word.fault?_wrapped m.instructions m.fetched m.nextWord)
    fun hw => Word.effect_wrapped (s := m.fetched) m.instructions hs (h m.nextWord hw)
  rw [hstep, hafter]
  rfl

theorem twins_wrapped {n : Nat} (hs : m.state.screen.edgeMode = .clip)
    (h : ∀ i < n, ∀ w, m.call i = .ok w → w.DrawsInside (m.cycles i).state) :
    m.Twins m.wrapped n := by
  apply Twins.of_commutes (f := wrapped) fun _ => ⟨rfl, rfl⟩
  intro i hi
  exact step_wrapped ((m.edgeMode_cycles i).trans hs) (h i hi)

end Machine

/-! ### The main statement -/

namespace Run

/-- If no sprite that the clipping run draws sets a pixel beyond the right edge, the wrapping run has
the same result. -/
theorem edgeMode_irrelevant (unseeded : Twister) (image : List Byte) (o : Options)
    (hpolicy : o.unknownInstruction = "halt" ∨ o.unknownInstruction = "skip")
    (hkeys : ∀ key ∈ o.keysDown, 0 ≤ key ∧ key ≤ 15) :
    ∃ clipped wrapped, run image { o with spriteWrap := false } unseeded = .ok clipped ∧
      run image { o with spriteWrap := true } unseeded = .ok wrapped ∧
      ((∀ p m, p.bytes = image → { o with spriteWrap := false }.Builds unseeded p m →
        ∀ i < clipped.result.steps, ∀ w, m.call i = .ok w → w.DrawsInside (m.cycles i).state) →
      wrapped.result = clipped.result) := by
  cases hp : Program.ofBytes image with
  | error f =>
    exact ⟨_, _, run_of_unloadable hpolicy hp, run_of_unloadable hpolicy hp, fun _ => rfl⟩
  | ok p =>
    obtain rfl := Program.ofBytes_eq_ok_iff.1 hp
    let m : Machine Twister := ⟨p, .ofLegacyShift o.legacyShift, o.frequency, .clip, 0,
      { o with spriteWrap := false }.startState unseeded p⟩
    have hb : { o with spriteWrap := false }.Builds unseeded p m :=
      Options.builds_iff.2 ⟨hpolicy, hkeys, rfl⟩
    have hb' : { o with spriteWrap := true }.Builds unseeded p m.wrapped :=
      Options.builds_iff.2 ⟨hpolicy, hkeys, rfl⟩
    obtain ⟨clipped, wrapped, hrun, hrun', hsame⟩ := runs_of_twins hb hb' rfl rfl
    exact ⟨clipped, wrapped, hrun, hrun', fun h =>
      hsame (Machine.twins_wrapped rfl (h p m rfl hb))⟩

/-- The glyph of the digit 0 at column 60, where it fills the last four columns. -/
theorem edgeMode_irrelevant_glyph :
    let image : List Byte := [0x60, 0x3C, 0xF1, 0x29, 0xD0, 0x15, 0x12, 0x06]
    let o : Options := { randomSeed := some 7, keysDown := [3], trace := true }
    let unseeded := Twister.seeded 0
    ∃ clipped wrapped, run image { o with spriteWrap := false } unseeded = .ok clipped ∧
      run image { o with spriteWrap := true } unseeded = .ok wrapped ∧
      (∀ p m, p.bytes = image → { o with spriteWrap := false }.Builds unseeded p m →
        ∀ i < clipped.result.steps, ∀ w, m.call i = .ok w → w.DrawsInside (m.cycles i).state) ∧
      wrapped.result = clipped.result := by
  intro image o unseeded
  obtain ⟨clipped, wrapped, hrun, hrun', hsame⟩ :=
    edgeMode_irrelevant unseeded image o (.inl rfl) (by decide)
  obtain ⟨out, hout, hsteps⟩ : ∃ out, run image { o with spriteWrap := false } unseeded = .ok out ∧
      out.result.steps = 4 := exists_run_of_toOption Result.steps (by decide +kernel)
  obtain rfl : out = clipped := Except.ok.inj (hout.symm.trans hrun)
  have h : ∀ p m, p.bytes = image → { o with spriteWrap := false }.Builds unseeded p m →
      ∀ i < out.result.steps, ∀ w, m.call i = .ok w → w.DrawsInside (m.cycles i).state := by
    intro p m hp hb
    obtain rfl : p = ⟨image, by decide⟩ := Program.ext hp
    rw [hb.eq, hsteps]
    decide +kernel
  exact ⟨out, wrapped, hrun, hrun', h, hsame h⟩

end Run

end Chip8
