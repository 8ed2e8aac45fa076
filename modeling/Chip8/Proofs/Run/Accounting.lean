import Chip8.Proofs.Run.Course

/-!
# The account of a run

What a result says about the calls to the machine that the run made, numbered from 1. `Result.Account`
reads every field off these calls, with no regard to the loop that made them. The main statement is
`run_account`.
-/

namespace Chip8.Run

/-- The options let a run pass over the fault. -/
def Options.Tolerates (o : Options) (r : Report) : Prop :=
  o.unknownInstruction = "skip" ∧ r.fault.category = .unknownInstruction

/-- The row for the call numbered `i + 1`, if the call returned a word: the address is the one before
the call, index and registers are those after it. -/
def Options.callRow (o : Options) (m : Machine Twister) (i : Nat) : Option TraceRow :=
  match m.call i with
  | .error _ => none
  | .ok word => some {
      step := i + 1
      address := (m.cycles i).state.pc.val
      word := word
      index := (m.cycles (i + 1)).state.index.val
      registers := if o.traceRegisters then
          some ((m.cycles (i + 1)).state.registers.toList.map BitVec.toNat)
        else none }

/-- What a result says about the calls to the machine that the run was given. -/
structure Result.Account (o : Options) (m : Machine Twister) (r : Result) : Prop where
  finalState : r.finalState = some (m.cycles r.steps).state.summary
  screen : r.screen = (m.cycles r.steps).state.screen.picture
  beeping : r.beeping = (m.cycles r.steps).state.beeping
  steps_le : (r.steps : Int) ≤ max o.maxSteps 0
  traced : o.trace = true → r.trace = (List.range r.steps).filterMap (o.callRow m)
  untraced : o.trace = false → r.trace = []
  goesOn : ∀ i, i + 1 < r.steps →
    (∃ w, m.call i = .ok w) ∨ ∃ report, m.call i = .error report ∧ o.Tolerates report
  jumpsOn : o.stopOnSelfJump = true → ∀ i, i + 1 < r.steps → ¬ (m.cycles i).SelfJumps
  status : r.status = "error" ↔ r.reason = .fault
  reason : r.reason = .fault ↔ r.error.isSome = true
  reported : r.error.isSome = true ↔
    ∃ i report, r.steps = i + 1 ∧ m.call i = .error report ∧ ¬ o.Tolerates report
  error : ∀ d, r.error = some d → d.step = r.steps ∧
    ∃ i report, r.steps = i + 1 ∧ m.call i = .error report ∧ d = report.diagnostic
  selfJump : r.reason = .selfJump ↔
    o.stopOnSelfJump = true ∧ ∃ i, r.steps = i + 1 ∧ (m.cycles i).SelfJumps
  stepLimit : r.reason = .stepLimit → (r.steps : Int) = max o.maxSteps 0

/-! ### Rows and reasons -/

theorem Options.tolerates_rules {o : Options} {r : Report} :
    o.rules.Tolerates r ↔ o.Tolerates r := by
  unfold Rules.Tolerates Tolerates rules
  by_cases h : o.unknownInstruction = "skip" <;> simp [h]

theorem Options.row?_rules (o : Options) (m : Machine Twister) (i : Nat) :
    o.rules.row? (m.cycles i) (i + 1) = if o.trace then o.callRow m i else none := by
  unfold Rules.row? callRow
  have hc : m.call i = (m.cycles i).step.1 := rfl
  rw [hc]
  cases (m.cycles i).step.1 with
  | ok w => rfl
  | error r => simp

section

variable {o : Options} {m : Machine Twister} {i : Nat}

theorem of_callRow {row : TraceRow} (h : o.callRow m i = some row) :
    m.call i = .ok row.word ∧ row.step = i + 1 ∧ row.address = (m.cycles i).state.pc.val := by
  unfold Options.callRow at h
  split at h
  · cases h
  · rename_i word hw
    cases h
    exact ⟨hw, rfl, rfl⟩

theorem callRow_of_error {r : Report} (h : m.call i = .error r) : o.callRow m i = none := by
  unfold Options.callRow
  rw [h]

theorem exists_callRow {w : Word} (h : m.call i = .ok w) : ∃ row, o.callRow m i = some row := by
  unfold Options.callRow
  rw [h]
  exact ⟨_, rfl⟩

end

namespace Session

variable {ρ : Type} {s : Session ρ}

theorem reason_eq_fault_iff : s.reason = .fault ↔ ∃ r, s.ending = some (.fault r) := by
  unfold reason
  split <;> simp_all

theorem reason_eq_selfJump_iff : s.reason = .selfJump ↔ s.ending = some .selfJump := by
  unfold reason
  split <;> simp_all

theorem reason_eq_stepLimit_iff : s.reason = .stepLimit ↔ s.ending = none := by
  unfold reason
  split <;> simp_all

theorem report?_eq_some_iff {r : Report} : s.report? = some r ↔ s.ending = some (.fault r) := by
  unfold report?
  split <;> simp_all

end Session

/-! ### The main statement -/

section

variable {o : Options} {unseeded : Twister} {p : Program} {m : Machine Twister} {n : Nat}

theorem steps_result : (Session.course o.rules m n).result.steps = n := by
  rw [Session.result_course]

theorem trace_result : (Session.course o.rules m n).result.trace =
    (List.range n).filterMap fun i => if o.trace then o.callRow m i else none := by
  rw [Session.result_course]
  simp only [Options.row?_rules]

theorem error_result_iff {d : Diagnostic} :
    (Session.course o.rules m n).result.error = some d ↔ ∃ i report, n = i + 1 ∧
      m.call i = .error report ∧ ¬ o.Tolerates report ∧ d = report.diagnostic := by
  rw [Session.result_course, Option.map_eq_some_iff]
  constructor
  · rintro ⟨report, hr, rfl⟩
    obtain ⟨i, hi, hc, ht⟩ :=
      Session.ending_course_eq_fault_iff.1 (Session.report?_eq_some_iff.1 hr)
    exact ⟨i, report, hi, hc, mt Options.tolerates_rules.2 ht, rfl⟩
  · rintro ⟨i, report, hi, hc, ht, rfl⟩
    have he := Session.ending_course_eq_fault_iff.2 ⟨i, hi, hc, mt Options.tolerates_rules.1 ht⟩
    exact ⟨report, Session.report?_eq_some_iff.2 he, rfl⟩

theorem reported_result_iff : (Session.course o.rules m n).result.error.isSome = true ↔
    ∃ i report, n = i + 1 ∧ m.call i = .error report ∧ ¬ o.Tolerates report := by
  rw [Option.isSome_iff_exists]
  constructor
  · rintro ⟨d, hd⟩
    obtain ⟨i, report, hi, hc, ht, -⟩ := error_result_iff.1 hd
    exact ⟨i, report, hi, hc, ht⟩
  · rintro ⟨i, report, hi, hc, ht⟩
    exact ⟨report.diagnostic, error_result_iff.2 ⟨i, report, hi, hc, ht, rfl⟩⟩

theorem reason_result_eq_fault_iff : (Session.course o.rules m n).result.reason = .fault ↔
    (Session.course o.rules m n).result.error.isSome = true := by
  rw [reported_result_iff, Session.result_course, Session.reason_eq_fault_iff]
  simp only [Session.ending_course_eq_fault_iff, Options.tolerates_rules]
  exact exists_comm

theorem reason_result_eq_selfJump_iff : (Session.course o.rules m n).result.reason = .selfJump ↔
    o.stopOnSelfJump = true ∧ ∃ i, n = i + 1 ∧ (m.cycles i).SelfJumps := by
  rw [Session.result_course, Session.reason_eq_selfJump_iff]
  exact Session.ending_course_eq_selfJump_iff

theorem Result.status_eq_error_iff (r : Result) : r.status = "error" ↔ r.error.isSome = true := by
  unfold status
  cases r.error <;> simp

theorem account_of_stops (hb : o.Builds unseeded p m)
    (hs : Session.Stops o.rules m n o.maxSteps.toNat) :
    (Session.course o.rules m n).result.Account o m where
  finalState := by rw [Session.result_course]
  screen := by rw [Session.result_course]
  beeping := by rw [Session.result_course]
  steps_le := by
    have hle := hs.le
    rw [steps_result]
    omega
  traced := by
    intro ht
    simp only [trace_result, steps_result, ht, if_true]
  untraced := by
    intro ht
    simp [trace_result, ht]
  goesOn := by
    intro i hi
    rw [steps_result] at hi
    have hnone := hs.goesOn (i + 1) hi
    rw [Session.ending_course_succ] at hnone
    simpa only [Options.tolerates_rules] using Rules.returned_or_tolerated hnone
  jumpsOn := by
    intro hon i hi hj
    rw [steps_result] at hi
    have hsome : (Session.course o.rules m (i + 1)).ending = some .selfJump :=
      Session.ending_course_eq_selfJump_iff.2 ⟨hon, i, rfl, hj⟩
    rw [hs.goesOn (i + 1) hi] at hsome
    cases hsome
  status := (Result.status_eq_error_iff _).trans reason_result_eq_fault_iff.symm
  reason := reason_result_eq_fault_iff
  reported := by
    rw [steps_result]
    exact reported_result_iff
  error := by
    intro d hd
    obtain ⟨i, report, rfl, hc, -, rfl⟩ := error_result_iff.1 hd
    rw [steps_result]
    have hstep : report.step = (m.cycles i).cycle + 1 := Machine.step_of_report hc
    rw [Machine.cycle_cycles, hb.cycle_eq, Nat.zero_add] at hstep
    exact ⟨congrArg Int.ofNat hstep, i, report, rfl, hc, rfl⟩
  selfJump := by
    rw [steps_result]
    exact reason_result_eq_selfJump_iff
  stepLimit := by
    intro hr
    have hnone := Session.reason_eq_stepLimit_iff.1 hr
    rcases hs.stops with hl | he
    · rw [steps_result, hl]
      omega
    · rw [hnone] at he
      cases he

end

/-- Accepted options give a result, and the result accounts for the calls to the machine. -/
theorem run_account {o : Options} {unseeded : Twister} {p : Program} {m : Machine Twister}
    (hb : o.Builds unseeded p m) :
    ∃ out, run p.bytes o unseeded = .ok out ∧ out.result.Account o m := by
  obtain ⟨out, n, hrun, hs, hres⟩ := exists_run_of_builds hb
  refine ⟨out, hrun, ?_⟩
  rw [hres]
  exact account_of_stops hb hs

/-- An unknown word that is passed over, then a jump to itself. -/
theorem run_account_skip :
    let o : Options :=
      { unknownInstruction := "skip", randomSeed := some 7, keysDown := [3, 3, 0], trace := true }
    let unseeded := Twister.seeded 0
    let p : Program := ⟨[0x00, 0x00, 0x12, 0x02], by decide⟩
    let m := ⟨p, .ofLegacyShift o.legacyShift, o.frequency, o.edgeMode, 0, o.startState unseeded p⟩
    o.Builds unseeded p m ∧ ∃ out, run p.bytes o unseeded = .ok out ∧ out.result.Account o m := by
  intro o unseeded p m
  have hb : o.Builds unseeded p m := Options.builds_iff.2 ⟨.inr rfl, by decide, rfl⟩
  exact ⟨hb, run_account hb⟩

end Chip8.Run
