import Chip8.Proofs.Run.Limit

/-!
# Passing over unknown words

The two policies part only where a run meets a word that stands for no instruction: up to there they do
the same, and passing over the word moves the program counter and costs a step. The main statement is
`skip_agrees_with_halt`.
-/

namespace Chip8

theorem Program.category_of_ofBytes {image : List Byte} {f : Fault} (h : ofBytes image = .error f) :
    f.category = .programTooLarge := by
  unfold ofBytes at h
  split at h
  · cases h
  · cases h
    rfl

namespace Machine

variable {ρ : Type} [RandomSource ρ] {m : Machine ρ}

/-- The next cycle fails on a word that stands for no instruction. -/
def MeetsUnknown (m : Machine ρ) : Prop :=
  ∃ r, m.step.1 = .error r ∧ r.fault.category = .unknownInstruction

theorem step_of_meetsUnknown (h : m.MeetsUnknown) :
    m.state.pc.val + 1 < memorySize ∧ m.step.2 = m.after m.fetched := by
  obtain ⟨r, hr, hc⟩ := h
  have ho := m.step_outcome
  generalize m.step = result at ho hr ⊢
  cases ho with
  | unfetched hp =>
    cases hr
    cases hc
  | faulted hp hf => exact ⟨hp, rfl⟩
  | executed hp hf => cases hr

end Machine

namespace Run

/-- The session `t` is the session `s` one step later, which has passed over the word at the program
counter. -/
structure Session.PassesOver {ρ : Type} (s t : Session ρ) : Prop where
  steps : t.steps = s.steps + 1
  rows : t.rows = s.rows
  ending : t.ending = none
  pc : t.machine.state.pc.val = s.machine.state.pc.val + 2
  machine : t.machine = { s.machine with
    cycle := s.machine.cycle + 1
    state := { s.machine.state with
      pc := t.machine.state.pc
      delayTimer := s.machine.ticked s.machine.state.delayTimer
      soundTimer := s.machine.ticked s.machine.state.soundTimer
      screen := { s.machine.state.screen with changed := false } } }

/-! ### Two policies -/

namespace Rules

variable {ρ : Type} [RandomSource ρ] (rules : Rules) (policy : Policy) {m : Machine ρ}

theorem ending?_of_known (h : ¬ m.MeetsUnknown) (address : Nat) :
    { rules with policy := policy }.ending? address m.step.1 = rules.ending? address m.step.1 := by
  cases hc : m.step.1 with
  | ok w => rfl
  | error r =>
    have ht : ∀ rules : Rules, ¬ rules.Tolerates r := fun _ ht => h ⟨r, hc, ht.2⟩
    rw [ending?_of_not_tolerates (ht _), ending?_of_not_tolerates (ht _)]

theorem events_of_known (h : ¬ m.MeetsUnknown) :
    { rules with policy := policy }.events m = rules.events m := by
  unfold events
  cases hc : m.step.1 with
  | ok w => cases policy <;> cases rules.policy <;> rfl
  | error r =>
    obtain ⟨fault, step, place, word⟩ := r
    cases fault with
    | unknownInstruction w => exact absurd ⟨_, hc, rfl⟩ h
    | _ => cases policy <;> cases rules.policy <;> rfl

end Rules

namespace Session

variable {ρ : Type} [RandomSource ρ] {rules : Rules} {m : Machine ρ} {n : Nat}

variable (rules) in
theorem course_of_known (policy : Policy) (h : ∀ i < n, ¬ (m.cycles i).MeetsUnknown) :
    course { rules with policy := policy } m n = course rules m n := by
  induction n with
  | zero => rfl
  | succ n ih =>
    have hn := h n (Nat.lt_succ_self n)
    rw [course, course, ih fun i hi => h i (Nat.lt_succ_of_lt hi), advance_eq, advance_eq,
      machine_course, rules.ending?_of_known policy hn, rules.events_of_known policy hn]
    rfl

theorem known_of_goesOn (hpolicy : rules.policy = .halt) {i : Nat}
    (h : (course rules m (i + 1)).ending = none) : ¬ (m.cycles i).MeetsUnknown := by
  rintro ⟨r, hr, -⟩
  have ht : ¬ rules.Tolerates r := by
    intro ht
    rw [Rules.Tolerates, hpolicy] at ht
    cases ht.1
  rw [ending_course_eq_fault_iff.2 ⟨i, rfl, hr, ht⟩] at h
  cases h

theorem ending_of_meetsUnknown (hpolicy : rules.policy = .skip) {i : Nat}
    (h : (m.cycles i).MeetsUnknown) : (course rules m (i + 1)).ending = none := by
  obtain ⟨r, hr, hc⟩ := h
  rw [ending_course_succ, Machine.call, hr]
  exact Rules.ending?_of_tolerates ⟨hpolicy, hc⟩

theorem result_of_goesOn (policy : Policy)
    (h : (course { rules with policy := policy } m n).ending = none) :
    (course { rules with policy := policy } m n).result =
      { (course rules m n).result with reason := .stepLimit, error := none } := by
  rw [result_course, result_course, reason, report?, h]
  rfl

theorem passesOver_advance (hpolicy : rules.policy = .skip) {s : Session ρ}
    (h : s.machine.MeetsUnknown) : s.PassesOver (s.advance rules) := by
  obtain ⟨hp, hstep⟩ := Machine.step_of_meetsUnknown h
  obtain ⟨r, hr, hc⟩ := h
  rw [advance_eq, hstep]
  exact {
    steps := rfl
    rows := by
      rw [Rules.row?, hr]
      rfl
    ending := by
      dsimp only
      rw [hr]
      exact Rules.ending?_of_tolerates ⟨hpolicy, hc⟩
    pc := Machine.pc_fetched hp
    machine := rfl }

end Session

/-! ### Options -/

namespace Options

variable {o : Options} {unseeded : Twister} {p : Program} {m : Machine Twister}

def halting (o : Options) : Options := { o with unknownInstruction := "halt" }

def skipping (o : Options) : Options := { o with unknownInstruction := "skip" }

theorem rules_halting (o : Options) : o.halting.rules = { o.rules with policy := .halt } := by
  simp [halting, rules]

theorem rules_skipping (o : Options) :
    o.skipping.rules = { o.halting.rules with policy := .skip } := by
  simp [halting, skipping, rules]

theorem Builds.skipping (h : o.halting.Builds unseeded p m) : o.skipping.Builds unseeded p m :=
  ⟨.inr rfl, h.2⟩

theorem session_of_goesOn {n : Nat} (h : ∀ i < n, (Session.course o.rules m i).ending = none) :
    o.session m n = Session.course o.rules m n := by
  rw [session, Int.toNat_natCast, Session.run_of_goesOn h]

theorem passesOver_session {n limit i : Nat} (hs : Session.Stops o.skipping.rules m n limit)
    (hi : i < n) (h : (o.skipping.session m i).machine.MeetsUnknown) :
    (o.skipping.session m i).PassesOver (o.skipping.session m (i + 1)) := by
  have hcourse : ∀ j ≤ n, o.skipping.session m j = Session.course o.skipping.rules m j :=
    fun j hj => session_of_goesOn fun k hk => hs.goesOn k (Nat.lt_of_lt_of_le hk hj)
  have hnext : o.skipping.session m (i + 1) = (o.skipping.session m i).advance o.skipping.rules := by
    rw [hcourse i (Nat.le_of_lt hi)]
    exact hcourse (i + 1) hi
  rw [hnext]
  exact Session.passesOver_advance (by rw [rules_skipping]) h

end Options

/-! ### The main statement -/

section

variable {o : Options} {p : Program} {m : Machine Twister} {n : Nat}

theorem error_skipping {d : Diagnostic}
    (h : (Session.course o.skipping.rules m n).result.error = some d) :
    d.category ≠ .unknownInstruction := by
  obtain ⟨i, r, -, -, ht, rfl⟩ := error_result_iff.1 h
  intro hc
  exact ht ⟨rfl, hc⟩

theorem known_of_stops (hs : Session.Stops o.halting.rules m n o.maxSteps.toNat)
    (h : ∀ d, (Session.course o.halting.rules m n).result.error = some d →
      d.category ≠ .unknownInstruction) : ∀ i < n, ¬ (m.cycles i).MeetsUnknown := by
  intro i hi hu
  -- before its last step the run has gone on, and in its last step it would report the word
  by_cases hlast : n = i + 1
  · obtain ⟨r, hr, hc⟩ := hu
    have ht : ¬ o.halting.Tolerates r := fun ht => absurd ht.1 (by simp [Options.halting])
    exact h r.diagnostic (error_result_iff.2 ⟨i, r, hlast, hr, ht, rfl⟩) hc
  · exact Session.known_of_goesOn (by rw [Options.rules_halting]) (hs.goesOn (i + 1) (by omega)) hu

theorem course_skipping (h : ∀ i < n, ¬ (m.cycles i).MeetsUnknown) :
    Session.course o.skipping.rules m n = Session.course o.halting.rules m n := by
  rw [Options.rules_skipping]
  exact Session.course_of_known o.halting.rules .skip h

theorem stops_skipping (hs : Session.Stops o.halting.rules m n o.maxSteps.toNat)
    (h : ∀ i < n, ¬ (m.cycles i).MeetsUnknown) :
    Session.Stops o.skipping.rules m n o.maxSteps.toNat := by
  apply hs.congr
  intro i hi
  rw [course_skipping fun j hj => h j (Nat.lt_of_lt_of_le hj hi)]

section

variable {i : Nat} (hs : Session.Stops o.halting.rules m (i + 1) o.maxSteps.toNat)
  (hu : (m.cycles i).MeetsUnknown)

include hs hu

theorem goesOn_skipping {j : Nat} (hj : j ≤ i + 1) :
    (Session.course o.skipping.rules m j).ending = none := by
  rcases Nat.le_succ_iff.1 hj with hle | rfl
  · have hknown : ∀ k < j, ¬ (m.cycles k).MeetsUnknown := by
      intro k hk
      have hgo := hs.goesOn (k + 1) (by omega)
      exact Session.known_of_goesOn (by rw [Options.rules_halting]) hgo
    rw [course_skipping hknown]
    exact hs.goesOn j (Nat.lt_succ_of_le hle)
  · exact Session.ending_of_meetsUnknown (by rw [Options.rules_skipping]) hu

theorem result_session_skipping : (o.skipping.session m (i + 1 : Nat)).result =
    { (Session.course o.halting.rules m (i + 1)).result with
      reason := .stepLimit
      error := none } := by
  rw [Options.session_of_goesOn fun j hj => goesOn_skipping hs hu (Nat.le_of_lt hj)]
  have hend := goesOn_skipping hs hu (Nat.le_refl (i + 1))
  rw [Options.rules_skipping] at hend ⊢
  exact Session.result_of_goesOn .skip hend

theorem filter_trace_skipping :
    (o.skipping.session m o.maxSteps).result.trace.filter (fun row => row.step ≤ i + 1) =
      (Session.course o.halting.rules m (i + 1)).result.trace := by
  have hle : ((i + 1 : Nat) : Int) ≤ o.maxSteps := by
    have hn := hs.le
    omega
  have hcut := result_session_skipping hs hu
  have hc := continues_of_cutOff hle (by rw [hcut])
  rw [hcut] at hc
  simpa only [Int.ofNat_le] using hc.trace

end

end

/-- The run that passes over unknown words agrees with the one that halts: without an unknown word the
results are equal, and otherwise up to the step that meets the first one. No run that passes over
unknown words reports one. -/
theorem skip_agrees_with_halt (unseeded : Twister) (image : List Byte) (o : Options)
    (hkeys : ∀ key ∈ o.keysDown, 0 ≤ key ∧ key ≤ 15) :
    ∃ halted skipped, run image o.halting unseeded = .ok halted ∧
      run image o.skipping unseeded = .ok skipped ∧
      ((∀ d, halted.result.error = some d → d.category ≠ .unknownInstruction) →
        skipped.result = halted.result) ∧
      (∀ d, halted.result.error = some d → d.category = .unknownInstruction →
        d.step = halted.result.steps ∧
        skipped.result.trace.filter (fun row => row.step ≤ halted.result.steps) =
          halted.result.trace ∧
        ∃ limited,
          run image { o.skipping with maxSteps := halted.result.steps } unseeded = .ok limited ∧
          limited.result = { halted.result with reason := .stepLimit, error := none }) ∧
      (∀ d, skipped.result.error = some d → d.category ≠ .unknownInstruction) ∧
      ∀ p m, p.bytes = image → o.skipping.Builds unseeded p m → ∀ i < skipped.result.steps,
        (o.skipping.session m i).machine.MeetsUnknown →
          (o.skipping.session m i).PassesOver (o.skipping.session m (i + 1)) := by
  cases hp : Program.ofBytes image with
  | error f =>
    have hf : ∀ d, (Result.unloaded f).error = some d → d.category ≠ .unknownInstruction := by
      rintro d ⟨⟩ hc
      have hlarge := Program.category_of_ofBytes hp
      rw [show f.category = .unknownInstruction from hc] at hlarge
      cases hlarge
    refine ⟨_, _, run_of_unloadable (.inl rfl) hp, run_of_unloadable (.inr rfl) hp, fun _ => rfl,
      fun d hd hc => absurd hc (hf d hd), hf, ?_⟩
    rintro p m rfl
    rw [Program.ofBytes_eq_ok_iff.2 rfl] at hp
    cases hp
  | ok p =>
    obtain rfl := Program.ofBytes_eq_ok_iff.1 hp
    let m : Machine Twister :=
      ⟨p, .ofLegacyShift o.legacyShift, o.frequency, o.edgeMode, 0, o.startState unseeded p⟩
    have hb : o.halting.Builds unseeded p m := Options.builds_iff.2 ⟨.inl rfl, hkeys, rfl⟩
    obtain ⟨halted, n, hrun, hs, hres⟩ := exists_run_of_builds hb
    obtain ⟨skipped, n', hrun', hs', hres'⟩ := exists_run_of_builds hb.skipping
    refine ⟨halted, skipped, hrun, hrun', ?_, ?_, ?_, ?_⟩
    · intro h
      rw [hres] at h
      have hknown := known_of_stops hs h
      obtain ⟨out, hout, hsame⟩ := run_of_stops hb.skipping (stops_skipping hs hknown)
      obtain rfl : skipped = out := Except.ok.inj (hrun'.symm.trans hout)
      rw [hsame, hres, course_skipping hknown]
    · intro d hd hc
      rw [hres] at hd
      obtain ⟨i, r, rfl, hr, -, rfl⟩ := error_result_iff.1 hd
      have hu : (m.cycles i).MeetsUnknown := ⟨r, hr, hc⟩
      obtain ⟨limited, hlimited, hcut⟩ := exists_run_of_limit hb.skipping (i + 1 : Nat)
      have hstep : r.step = i + 1 := by
        rw [Machine.step_of_report hr, Machine.cycle_cycles, hb.cycle_eq, Nat.zero_add]
      have hsession : o.skipping.session m o.maxSteps = Session.course o.skipping.rules m n' :=
        Session.run_of_stops hs'
      rw [hres, hres', steps_result, ← hsession]
      refine ⟨congrArg Int.ofNat hstep, filter_trace_skipping hs hu, limited, hlimited, ?_⟩
      rw [hcut, result_session_skipping hs hu]
    · intro d hd
      rw [hres'] at hd
      exact error_skipping hd
    · intro q m' hq hb' i hi
      obtain rfl := Program.ext hq
      obtain rfl : m' = m := hb'.eq
      rw [hres', steps_result] at hi
      exact Options.passesOver_session hs' hi

/-- An unknown word between a load and a jump to itself. -/
theorem skip_agrees_with_halt_word :
    let image : List Byte := [0x60, 0x05, 0x00, 0x00, 0x12, 0x04]
    let o : Options := { randomSeed := some 7, keysDown := [3], trace := true }
    (∀ key ∈ o.keysDown, 0 ≤ key ∧ key ≤ 15) ∧
    ∃ halted skipped, run image o.halting = .ok halted ∧ run image o.skipping = .ok skipped ∧
      halted.result.error.map Diagnostic.category = some .unknownInstruction ∧
      skipped.result.trace.filter (fun row => row.step ≤ halted.result.steps) =
        halted.result.trace ∧
      ∃ limited, run image { o.skipping with maxSteps := halted.result.steps } = .ok limited ∧
        limited.result = { halted.result with reason := .stepLimit, error := none } := by
  intro image o
  have hkeys : ∀ key ∈ o.keysDown, 0 ≤ key ∧ key ≤ 15 := by decide
  obtain ⟨halted, skipped, hrun, hrun', -, hagree, -⟩ :=
    skip_agrees_with_halt (Twister.seeded 0) image o hkeys
  obtain ⟨out, hout, hcategory⟩ : ∃ out, run image o.halting = .ok out ∧
      out.result.error.map Diagnostic.category = some .unknownInstruction :=
    exists_run_of_toOption (fun r => r.error.map Diagnostic.category) (by decide +kernel)
  obtain rfl : halted = out := Except.ok.inj (hrun.symm.trans hout)
  obtain ⟨d, hd, hc⟩ := Option.map_eq_some_iff.1 hcategory
  obtain ⟨-, htrace, hlimited⟩ := hagree d hd hc
  exact ⟨hkeys, halted, skipped, hrun, hrun', hcategory, htrace, hlimited⟩

end Run

end Chip8
