import Chip8.Proofs.Run.Accounting

/-!
# Raising the limit of a run

A run that is cut off at its limit can be resumed: a session that starts afresh from the machine left
behind does what the longer run does from there on, only that its steps are numbered from 1. A run
that has stopped before its limit does not depend on the limit. The main statement is
`limit_truncates`.
-/

namespace Chip8.Run

/-! ### Resumed sessions -/

/-- The row of a step that stands behind a number of earlier steps. -/
def TraceRow.behind (n : Nat) (row : TraceRow) : TraceRow := { row with step := n + row.step }

/-- A result and behind it that of a run of the machine it was read off. -/
def Result.followedBy (r rest : Result) : Result :=
  { rest with
    steps := r.steps + rest.steps
    trace := r.trace ++ rest.trace.map (TraceRow.behind r.steps) }

namespace Rules

variable {ρ : Type} [RandomSource ρ] {rules : Rules} {m : Machine ρ}

theorem row?_add (rules : Rules) (m : Machine ρ) (n step : Nat) :
    rules.row? m (n + step) = (rules.row? m step).map (TraceRow.behind n) := by
  unfold row?
  cases m.step.1 with
  | ok w => by_cases ht : rules.trace = true <;> simp [ht, row, TraceRow.behind]
  | error r => rfl

theorem step_of_row? {step : Nat} {row : TraceRow} (h : rules.row? m step = some row) :
    row.step = step := by
  unfold row? at h
  cases hc : m.step.1 with
  | ok w =>
    simp only [hc, Option.ite_none_right_eq_some, Option.some.injEq] at h
    rw [← h.2]
    rfl
  | error r =>
    simp only [hc] at h
    cases h

end Rules

namespace Session

section

variable {ρ : Type}

/-- A session and behind it one that started from its machine. -/
def followedBy (s t : Session ρ) : Session ρ where
  machine := t.machine
  steps := s.steps + t.steps
  rows := t.rows.map (TraceRow.behind s.steps) ++ s.rows
  log := t.log ++ s.log
  ending := t.ending

theorem followedBy_start {s : Session ρ} (h : s.ending = none) :
    s.followedBy { machine := s.machine } = s := by
  obtain ⟨machine, steps, rows, log, ending⟩ := s
  cases h
  rfl

theorem result_followedBy (s t : Session ρ) :
    (s.followedBy t).result = s.result.followedBy t.result := by
  simp only [result, followedBy, Result.followedBy, List.reverse_append, List.map_reverse]
  rfl

end

variable {ρ : Type} [RandomSource ρ] {rules : Rules}

theorem advance_followedBy (s t : Session ρ) :
    (s.followedBy t).advance rules = s.followedBy (t.advance rules) := by
  have hrow := rules.row?_add t.machine s.steps (t.steps + 1)
  rw [advance_eq, advance_eq]
  simp only [followedBy, Nat.add_assoc, hrow, List.append_assoc, List.map_append]
  cases rules.row? t.machine (t.steps + 1) <;> rfl

theorem run_followedBy (n : Nat) (s t : Session ρ) :
    (s.followedBy t).run rules n = s.followedBy (t.run rules n) := by
  induction n generalizing t with
  | zero => rfl
  | succ n ih =>
    have he : (s.followedBy t).ending = t.ending := rfl
    rw [run, run, he]
    by_cases h : t.ending.isSome = true
    · rw [if_pos h, if_pos h]
    · rw [if_neg h, if_neg h, advance_followedBy, ih]

/-- A session that has not ended goes on as one that starts afresh from its machine. -/
theorem run_resumed {s : Session ρ} (h : s.ending = none) (n : Nat) :
    s.run rules n = s.followedBy (run rules n { machine := s.machine }) := by
  rw [← run_followedBy, followedBy_start h]

/-! ### Stretches of a run -/

theorem run_of_le {s : Session ρ} {a b : Nat} (h : a ≤ b) :
    s.run rules b = (s.run rules a).run rules (b - a) := by
  rw [← run_add, Nat.add_sub_cancel' h]

theorem run_of_stopped {s : Session ρ} {a b : Nat} (h : a ≤ b)
    (hr : (s.run rules a).result.reason ≠ .stepLimit) : s.run rules b = s.run rules a := by
  have hended : (s.run rules a).ending ≠ none := mt reason_eq_stepLimit_iff.2 hr
  rw [run_of_le h]
  exact run_of_ended rules (b - a) (Option.isSome_iff_ne_none.2 hended)

theorem result_of_cutOff {s : Session ρ} {a b : Nat} (h : a ≤ b)
    (hr : (s.run rules a).result.reason = .stepLimit) :
    (s.run rules b).result = (s.run rules a).result.followedBy
      (run rules (b - a) { machine := (s.run rules a).machine }).result := by
  rw [run_of_le h, run_resumed (reason_eq_stepLimit_iff.1 hr), result_followedBy]

variable {m : Machine ρ} {n : Nat}

theorem steps_of_cutOff (hr : (run rules n { machine := m }).result.reason = .stepLimit) :
    (run rules n { machine := m }).result.steps = n := by
  have hnone := reason_eq_stepLimit_iff.1 hr
  obtain ⟨k, hs⟩ := exists_stops rules m n
  rw [run_of_stops hs] at hnone ⊢
  rw [result_course]
  rcases hs.stops with hk | he
  · exact hk
  · rw [hnone] at he
    cases he

theorem step_of_mem_trace {row : TraceRow}
    (h : row ∈ (run rules n { machine := m }).result.trace) : 0 < row.step ∧ row.step ≤ n := by
  obtain ⟨k, hs⟩ := exists_stops rules m n
  rw [run_of_stops hs, result_course] at h
  obtain ⟨i, hi, hrow⟩ := List.mem_filterMap.1 h
  have hik : i < k := List.mem_range.1 hi
  have hkn := hs.le
  have hstep := Rules.step_of_row? hrow
  omega

end Session

theorem Result.filter_trace_followedBy {r rest : Result} {limit : Int}
    (hr : ∀ row ∈ r.trace, (row.step : Int) ≤ limit)
    (hrest : ∀ row ∈ rest.trace, limit < r.steps + row.step) :
    (r.followedBy rest).trace.filter (fun row => (row.step : Int) ≤ limit) = r.trace := by
  have hfirst : ∀ row ∈ r.trace, decide ((row.step : Int) ≤ limit) = true :=
    fun row hrow => decide_eq_true (hr row hrow)
  have hsecond : ∀ row ∈ rest.trace.map (TraceRow.behind r.steps),
      ¬ decide ((row.step : Int) ≤ limit) = true := by
    intro row hrow
    obtain ⟨row', hrow', rfl⟩ := List.mem_map.1 hrow
    have hlt := hrest row' hrow'
    rw [TraceRow.behind, decide_eq_true_iff]
    push_cast
    omega
  rw [followedBy, List.filter_append, List.filter_eq_self.2 hfirst,
    List.filter_eq_nil_iff.2 hsecond, List.append_nil]

/-! ### The main statement -/

/-- The session of a run of the machine up to a limit. -/
def Options.session (o : Options) (m : Machine Twister) (limit : Int) : Session Twister :=
  Session.run o.rules limit.toNat { machine := m }

/-- The result `r` of a run of the machine that was cut off at a limit, and the result `r'` with a
higher limit. -/
structure Result.Continues (o : Options) (m : Machine Twister) (limit limit' : Int)
    (r r' : Result) : Prop where
  steps : max limit 0 ≤ (r'.steps : Int)
  trace : r'.trace.filter (fun row => (row.step : Int) ≤ limit) = r.trace
  cutOff : r = (o.session m limit).result
  resumed : r' = r.followedBy (Session.run o.rules (limit'.toNat - limit.toNat)
    { machine := (o.session m limit).machine }).result

section

variable {o : Options} {unseeded : Twister} {p : Program} {m : Machine Twister}

theorem exists_run_of_limit (hb : o.Builds unseeded p m) (limit : Int) :
    ∃ out, run p.bytes { o with maxSteps := limit } unseeded = .ok out ∧
      out.result = (o.session m limit).result := by
  obtain ⟨n, hs⟩ := Session.exists_stops o.rules m limit.toNat
  obtain ⟨out, hrun, hres⟩ := run_of_stops (o := { o with maxSteps := limit }) hb hs
  refine ⟨out, hrun, ?_⟩
  rw [Options.session, Session.run_of_stops hs]
  exact hres

theorem continues_of_cutOff {limit limit' : Int} (hle : limit ≤ limit')
    (h : (o.session m limit).result.reason = .stepLimit) :
    (o.session m limit).result.Continues o m limit limit' (o.session m limit').result := by
  have hsteps : (o.session m limit).result.steps = limit.toNat := Session.steps_of_cutOff h
  have hresumed : (o.session m limit').result = (o.session m limit).result.followedBy
      (Session.run o.rules (limit'.toNat - limit.toNat)
        { machine := (o.session m limit).machine }).result :=
    Session.result_of_cutOff (Int.toNat_le_toNat hle) h
  refine ⟨?_, ?_, rfl, hresumed⟩
  · rw [hresumed, Result.followedBy, hsteps]
    push_cast
    omega
  · rw [hresumed]
    apply Result.filter_trace_followedBy
    · intro row hrow
      have hstep := Session.step_of_mem_trace hrow
      omega
    · intro row hrow
      have hstep := Session.step_of_mem_trace hrow
      rw [hsteps]
      omega

end

/-- A higher limit makes no difference to a run that stopped by itself, and a run that was cut off is
the beginning of the one with the higher limit. -/
theorem limit_truncates (unseeded : Twister) (image : List Byte) (o : Options)
    (hpolicy : o.unknownInstruction = "halt" ∨ o.unknownInstruction = "skip")
    (hkeys : ∀ key ∈ o.keysDown, 0 ≤ key ∧ key ≤ 15) {limit limit' : Int} (hle : limit ≤ limit') :
    ∃ out out', run image { o with maxSteps := limit } unseeded = .ok out ∧
      run image { o with maxSteps := limit' } unseeded = .ok out' ∧
      (out.result.reason ≠ .stepLimit → out'.result = out.result) ∧
      (out.result.reason = .stepLimit → ∃ p m, p.bytes = image ∧ o.Builds unseeded p m ∧
        out.result.Continues o m limit limit' out'.result) := by
  cases hp : Program.ofBytes image with
  | error f =>
    refine ⟨_, _, run_of_unloadable hpolicy hp, run_of_unloadable hpolicy hp, fun _ => rfl, ?_⟩
    intro h
    cases h
  | ok p =>
    obtain rfl := Program.ofBytes_eq_ok_iff.1 hp
    have hb : o.Builds unseeded p
        ⟨p, .ofLegacyShift o.legacyShift, o.frequency, o.edgeMode, 0, o.startState unseeded p⟩ :=
      Options.builds_iff.2 ⟨hpolicy, hkeys, rfl⟩
    obtain ⟨out, hrun, hres⟩ := exists_run_of_limit hb limit
    obtain ⟨out', hrun', hres'⟩ := exists_run_of_limit hb limit'
    refine ⟨out, out', hrun, hrun', ?_, ?_⟩
    · intro h
      rw [hres] at h
      rw [hres', hres]
      exact congrArg Session.result (Session.run_of_stopped (Int.toNat_le_toNat hle) h)
    · intro h
      rw [hres] at h
      refine ⟨p, _, rfl, hb, ?_⟩
      rw [hres, hres']
      exact continues_of_cutOff hle h

/-- Two jumps that go round, cut off at an odd number of steps. -/
theorem limit_truncates_loop :
    let o : Options := { randomSeed := some 7, keysDown := [3], trace := true }
    let unseeded := Twister.seeded 0
    ∃ out out', run [0x12, 0x02, 0x12, 0x00] { o with maxSteps := 3 } unseeded = .ok out ∧
      run [0x12, 0x02, 0x12, 0x00] { o with maxSteps := 8 } unseeded = .ok out' ∧
      out.result.reason = .stepLimit ∧
      ∃ p m, p.bytes = [0x12, 0x02, 0x12, 0x00] ∧ o.Builds unseeded p m ∧
        out.result.Continues o m 3 8 out'.result := by
  intro o unseeded
  obtain ⟨out, out', hrun, hrun', -, hcut⟩ := limit_truncates unseeded [0x12, 0x02, 0x12, 0x00] o
    (.inl rfl) (by decide) (show (3 : Int) ≤ 8 by decide)
  obtain ⟨stopped, hstopped, hreason⟩ : ∃ stopped,
      run [0x12, 0x02, 0x12, 0x00] { o with maxSteps := 3 } unseeded = .ok stopped ∧
      stopped.result.reason = .stepLimit := exists_run_of_toOption Result.reason (by decide +kernel)
  obtain rfl : out = stopped := Except.ok.inj (hrun.symm.trans hstopped)
  exact ⟨out, out', hrun, hrun', hreason, hcut hreason⟩

end Chip8.Run
