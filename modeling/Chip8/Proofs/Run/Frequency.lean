import Chip8.Proofs.Run.Twins

/-!
# The clock frequency

The frequency decides at which cycles the timers tick, and only one instruction reads a timer. Two
machines that agree on everything but frequency and timers go on to do so as long as it is not executed,
so a run without it shows its frequency in nothing but the timers. The main statement is
`frequency_irrelevant`.
-/

namespace Chip8

/-! ### Without the timers -/

def State.untimed {ρ : Type} (s : State ρ) : State ρ := { s with delayTimer := 0, soundTimer := 0 }

def State.Summary.untimed (v : State.Summary) : State.Summary :=
  { v with delayTimer := 0, soundTimer := 0 }

/-- The word reads the delay timer. -/
def Word.ReadsDelay (w : Word) : Prop := w.family = 0xF ∧ w.nn = 0x07

instance (w : Word) : Decidable w.ReadsDelay := inferInstanceAs (Decidable (_ ∧ _))

namespace Instruction

variable {ρ : Type} (s : State ρ) (i : Instruction)

-- the timers are set aside behind the instruction as well, which may have set one of them
theorem effect_untimed [RandomSource ρ] (set : InstructionSet) (h : ∀ x, i ≠ readDelay x) :
    (i.effect set s.untimed).untimed = (i.effect set s).untimed := by
  cases i with
  | readDelay x => exact absurd rfl (h x)
  | skip condition => cases condition <;> rfl
  | _ => rfl

end Instruction

namespace Word

variable {ρ : Type} {s t : State ρ} {w : Word}

theorem fault?_of_untimed (set : InstructionSet) (h : t.untimed = s.untimed) :
    w.fault? set t = w.fault? set s :=
  fault?_congr set (congrArg State.pc h :) (congrArg State.index h :) (congrArg State.stack h :)
    (congrArg State.registers h :) (congrArg State.keypad h :)

theorem StandsFor.ne_readDelay {i : Instruction} (hw : w.StandsFor i) (h : ¬ w.ReadsDelay)
    (x : Register) : i ≠ .readDelay x := by
  rintro rfl
  cases hw with
  | readDelay hf hn => exact h ⟨hf, hn⟩

theorem effect_of_untimed [RandomSource ρ] (set : InstructionSet) (hread : ¬ w.ReadsDelay)
    (h : t.untimed = s.untimed) : (w.effect set t).untimed = (w.effect set s).untimed :=
  effect_of_erased set (fun i hw u => i.effect_untimed u set (hw.ne_readDelay hread)) h

end Word

/-! ### Cycles -/

namespace Machine

variable {ρ : Type} {m m' : Machine ρ}

/-- The machines agree on everything but frequency and timers. -/
structure AgreesButClock (m m' : Machine ρ) : Prop where
  instructions : m'.instructions = m.instructions
  cycle : m'.cycle = m.cycle
  state : m'.state.untimed = m.state.untimed

namespace AgreesButClock

theorem pc (h : AgreesButClock m m') : m'.state.pc = m.state.pc :=
  (congrArg State.pc h.state :)

theorem related (h : AgreesButClock m m') :
    Matches (fun s t : State ρ => t.untimed = s.untimed) m m' where
  cycle := h.cycle
  pc := h.pc
  nextWord := by
    have hmemory : m'.state.memory = m.state.memory := (congrArg State.memory h.state :)
    rw [nextWord, nextWord, hmemory, h.pc]
  prepared := congrArg (fun s : State ρ => { s with screen := s.screen.settle }) h.state
  fetched := congrArg (fun s : State ρ => { s with
    screen := s.screen.settle
    pc := s.pc.moved 2 }) h.state

theorem showsLike (h : AgreesButClock m m') : m.ShowsLike m' where
  pc := congrArg Address.val h.pc
  index := (congrArg (fun s : State ρ => s.index.val) h.state :)
  registers := (congrArg (fun s : State ρ => s.registers.toList.map BitVec.toNat) h.state :)
  rows := (congrArg (fun s : State ρ => s.screen.rows) h.state :)

theorem summary (h : AgreesButClock m m') :
    m'.state.summary.untimed = m.state.summary.untimed :=
  congrArg State.summary h.state

variable [RandomSource ρ]

theorem step (h : AgreesButClock m m') (hread : ∀ w, m.step.1 = .ok w → ¬ w.ReadsDelay) :
    m'.step.1 = m.step.1 ∧ AgreesButClock m.step.2 m'.step.2 := by
  obtain ⟨s, t, hst, hs, ht⟩ := h.related.step
    (fun _ => by
      rw [h.instructions]
      exact Word.fault?_of_untimed m.instructions h.related.fetched)
    fun hw => by
      rw [h.instructions]
      exact Word.effect_of_untimed m.instructions (hread _ hw) h.related.fetched
  rw [ht, hs]
  refine ⟨rfl, h.instructions, ?_, hst⟩
  rw [after, after, h.cycle]

theorem cycles (h : AgreesButClock m m') {n : Nat}
    (hread : ∀ i < n, ∀ w, m.call i = .ok w → ¬ w.ReadsDelay) :
    AgreesButClock (m.cycles n) (m'.cycles n) := by
  induction n with
  | zero => exact h
  | succ n ih =>
    have hn := ih fun i hi => hread i (Nat.lt_succ_of_lt hi)
    exact (hn.step (hread n (Nat.lt_succ_self n))).2

theorem siblings (h : AgreesButClock m m') {n : Nat}
    (hread : ∀ i < n, ∀ w, m.call i = .ok w → ¬ w.ReadsDelay) : m.Siblings m' n where
  shows := by
    intro i hi
    exact (h.cycles fun j hj => hread j (Nat.lt_of_lt_of_le hj hi)).showsLike
  call := by
    intro i hi
    have hstep := h.cycles fun j hj => hread j (Nat.lt_trans hj hi)
    exact (hstep.step (hread i hi)).1

end AgreesButClock

end Machine

/-! ### Runs -/

namespace Run

/-- The results agree on everything but the timers and, with the sound timer, the beeping. -/
structure Result.AgreesButTimers (r r' : Result) : Prop where
  status : r'.status = r.status
  reason : r'.reason = r.reason
  steps : r'.steps = r.steps
  error : r'.error = r.error
  trace : r'.trace = r.trace
  screen : r'.screen = r.screen
  finalState : r'.finalState.map State.Summary.untimed = r.finalState.map State.Summary.untimed

theorem agreesButTimers_of_siblings {ρ : Type} [RandomSource ρ] {m m' : Machine ρ} {n : Nat}
    (rules : Rules) (h : m.Siblings m' n)
    (hsummary : (m'.cycles n).state.summary.untimed = (m.cycles n).state.summary.untimed) :
    (Session.course rules m n).result.AgreesButTimers (Session.course rules m' n).result := by
  rw [Session.result_of_siblings rules h]
  refine ⟨rfl, rfl, rfl, rfl, rfl, rfl, ?_⟩
  rw [Session.result_course]
  exact congrArg some hsummary

/-- A run that executes no word which reads the delay timer has, with any other frequency, the same
result but for the timers. -/
theorem frequency_irrelevant (unseeded : Twister) (image : List Byte) (o : Options)
    (hpolicy : o.unknownInstruction = "halt" ∨ o.unknownInstruction = "skip")
    (hkeys : ∀ key ∈ o.keysDown, 0 ≤ key ∧ key ≤ 15) (frequency frequency' : Int) :
    ∃ out out', run image { o with frequency := frequency } unseeded = .ok out ∧
      run image { o with frequency := frequency' } unseeded = .ok out' ∧
      ((∀ p m, p.bytes = image → { o with frequency := frequency }.Builds unseeded p m →
        ∀ i < out.result.steps, ∀ w, m.call i = .ok w → ¬ w.ReadsDelay) →
      out.result.AgreesButTimers out'.result) := by
  cases hp : Program.ofBytes image with
  | error f =>
    exact ⟨_, _, run_of_unloadable hpolicy hp, run_of_unloadable hpolicy hp,
      fun _ => ⟨rfl, rfl, rfl, rfl, rfl, rfl, rfl⟩⟩
  | ok p =>
    obtain rfl := Program.ofBytes_eq_ok_iff.1 hp
    let m : Machine Twister :=
      ⟨p, .ofLegacyShift o.legacyShift, frequency, o.edgeMode, 0, o.startState unseeded p⟩
    let m' : Machine Twister := { m with frequency := frequency' }
    have hb : { o with frequency := frequency }.Builds unseeded p m :=
      Options.builds_iff.2 ⟨hpolicy, hkeys, rfl⟩
    have hb' : { o with frequency := frequency' }.Builds unseeded p m' :=
      Options.builds_iff.2 ⟨hpolicy, hkeys, rfl⟩
    have hstart : m.AgreesButClock m' := ⟨rfl, rfl, rfl⟩
    obtain ⟨out, out', n, hrun, hrun', hn, hres, hsame⟩ := runs_of_siblings hb hb' rfl rfl
    refine ⟨out, out', hrun, hrun', fun h => ?_⟩
    have hread : ∀ i < n, ∀ w, m.call i = .ok w → ¬ w.ReadsDelay := by
      rw [← hn]
      exact h p m rfl hb
    have hsiblings := hstart.siblings hread
    rw [hsame hsiblings, hres]
    exact agreesButTimers_of_siblings _ hsiblings (hstart.cycles hread).summary

/-- Both timers are set and run down at different rates, a negative one among them. -/
theorem frequency_irrelevant_sound :
    let image : List Byte :=
      [0x60, 0x05, 0xF0, 0x15, 0xF0, 0x18, 0x70, 0x01, 0xC1, 0xFF, 0x12, 0x0A]
    let o : Options := { randomSeed := some 7, keysDown := [3], trace := true }
    let unseeded := Twister.seeded 0
    ∃ out out', run image { o with frequency := 120 } unseeded = .ok out ∧
      run image { o with frequency := -1 } unseeded = .ok out' ∧
      (∀ p m, p.bytes = image → { o with frequency := 120 }.Builds unseeded p m →
        ∀ i < out.result.steps, ∀ w, m.call i = .ok w → ¬ w.ReadsDelay) ∧
      out.result.AgreesButTimers out'.result := by
  intro image o unseeded
  obtain ⟨out, out', hrun, hrun', hagree⟩ :=
    frequency_irrelevant unseeded image o (.inl rfl) (by decide) 120 (-1)
  obtain ⟨out₁, hout, hsteps⟩ : ∃ out₁, run image { o with frequency := 120 } unseeded = .ok out₁ ∧
      out₁.result.steps = 6 := exists_run_of_toOption Result.steps (by decide +kernel)
  obtain rfl : out₁ = out := Except.ok.inj (hout.symm.trans hrun)
  have h : ∀ p m, p.bytes = image → { o with frequency := 120 }.Builds unseeded p m →
      ∀ i < out₁.result.steps, ∀ w, m.call i = .ok w → ¬ w.ReadsDelay := by
    intro p m hp hb
    obtain rfl : p = ⟨image, by decide⟩ := Program.ext hp
    rw [hb.eq, hsteps]
    decide +kernel
  exact ⟨out₁, out', hrun, hrun', h, hagree h⟩

end Run

end Chip8
