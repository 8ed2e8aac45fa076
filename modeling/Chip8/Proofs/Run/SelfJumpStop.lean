import Chip8.Proofs.Run.Accounting

/-!
# Stopping at a jump to itself

A run that stops at a jump to itself has seen all that a longer run would see: running on moves only
the timers and repeats the last row of the trace. Where no such jump is executed, the stop rule
makes no difference. The main statement is `selfJump_stop_lossless`.
-/

namespace Chip8.Run

/-- The result `r'` of running on to a limit, without the stop rule, where the result `r` stopped at a
jump to itself. -/
structure Result.RunsOn (o : Options) (limit : Nat) (r r' : Result) : Prop where
  status : r'.status = "ok"
  reason : r'.reason = .stepLimit
  steps : r'.steps = limit
  error : r'.error = none
  screen : r'.screen = r.screen
  finalState : ∃ s, r.finalState = some s ∧ r'.finalState = some { s with
    delayTimer :=
      max (s.delayTimer - Machine.ticks (Machine.period o.frequency) r.steps limit) 0
    soundTimer :=
      max (s.soundTimer - Machine.ticks (Machine.period o.frequency) r.steps limit) 0 }
  trace : o.trace = true → ∃ last, r.trace.getLast? = some last ∧
    r'.trace = r.trace ++
      (List.range (limit - r.steps)).map fun i => { last with step := r.steps + i + 1 }

/-! ### The stop rule -/

namespace Rules

variable {rules : Rules} {address : Nat} {outcome : Except Report Word}

theorem ending?_unstopped (h : rules.ending? address outcome = none) :
    { rules with stopOnSelfJump := false }.ending? address outcome = none := by
  rcases returned_or_tolerated h with ⟨w, rfl⟩ | ⟨r, rfl, ht⟩
  · rfl
  · exact ending?_of_tolerates ht

variable (rules) in
theorem ending?_of_not_selfJump (stop : Bool)
    (h : ¬ ∃ w, outcome = .ok w ∧ w.family = 0x1 ∧ w.nnn.toNat = address) :
    { rules with stopOnSelfJump := stop }.ending? address outcome =
      rules.ending? address outcome := by
  cases outcome with
  | ok w =>
    have hw : isSelfJump w address = false := by
      rw [Bool.eq_false_iff]
      intro hj
      simp only [isSelfJump, Bool.and_eq_true, beq_iff_eq] at hj
      exact h ⟨w, rfl, hj⟩
    simp [ending?, hw]
  | error r => rfl

end Rules

namespace Session

variable {ρ : Type} [RandomSource ρ] {rules : Rules} {m : Machine ρ}

variable (rules) in
theorem course_of_not_selfJumps (stop : Bool) {n : Nat} (h : ∀ i < n, ¬ (m.cycles i).SelfJumps) :
    course { rules with stopOnSelfJump := stop } m n = course rules m n := by
  induction n with
  | zero => rfl
  | succ n ih =>
    have hn := rules.ending?_of_not_selfJump stop (h n (Nat.lt_succ_self n))
    rw [course, course, ih fun i hi => h i (Nat.lt_succ_of_lt hi), advance_eq, advance_eq,
      machine_course, hn]
    rfl

/-- Behind a jump to itself nothing ends a run that does not look for it. -/
theorem ending_unstopped {i : Nat} (hset : m.instructions ≠ .idle) (h : (m.cycles i).SelfJumps)
    (hgo : ∀ j ≤ i, (course rules m j).ending = none) (j : Nat) :
    (course { rules with stopOnSelfJump := false } m j).ending = none := by
  cases j with
  | zero => rfl
  | succ j =>
    rw [ending_course_succ]
    by_cases hj : j < i
    · have hnone := hgo (j + 1) hj
      rw [ending_course_succ] at hnone
      exact Rules.ending?_unstopped hnone
    · obtain ⟨d, rfl⟩ := Nat.exists_eq_add_of_le (Nat.le_of_not_lt hj)
      have hd := Machine.selfJumps_cycles (Machine.instructions_cycles_ne hset i) h d
      rw [← Machine.cycles_add] at hd
      obtain ⟨w, hw, -⟩ := hd
      rw [Machine.call, hw]
      rfl

end Session

/-! ### Repeated rows -/

/-- From a jump to itself on, the rows differ only in their numbers. -/
theorem callRow_of_selfJumps (o : Options) {m : Machine Twister} {i : Nat}
    (hset : m.instructions ≠ .idle) (hb : m.state.Bounded) (h : (m.cycles i).SelfJumps) :
    ∃ row : TraceRow, ∀ d, o.callRow m (i + d) = some { row with step := i + d + 1 } := by
  have hset' := Machine.instructions_cycles_ne hset i
  have hs := Machine.state_cycles_of_selfJumps hset' h (Machine.bounded_cycles hb i)
  refine ⟨{
    step := i + 1
    address := (m.cycles i).state.pc.val
    word := (m.cycles i).nextWord
    index := (m.cycles i).state.index.val
    registers := if o.traceRegisters then
        some ((m.cycles i).state.registers.toList.map BitVec.toNat)
      else none }, fun d => ?_⟩
  have hcall : m.call (i + d) = .ok (m.cycles i).nextWord := by
    have hd := Machine.selfJumps_cycles hset' h d
    have hw : ((m.cycles i).cycles d).nextWord = (m.cycles i).nextWord := by
      rw [Machine.nextWord, Machine.nextWord, hs d]
    have hstep := Machine.step_of_selfJumps (Machine.instructions_cycles_ne hset' d) hd
    rw [Machine.call, Machine.cycles_add, hstep, hw]
  have hpc : (m.cycles (i + d)).state.pc = (m.cycles i).state.pc := by
    rw [Machine.cycles_add, hs d]
  have hindex : (m.cycles (i + d + 1)).state.index = (m.cycles i).state.index := by
    rw [Nat.add_assoc, Machine.cycles_add, hs (d + 1)]
  have hregs : (m.cycles (i + d + 1)).state.registers = (m.cycles i).state.registers := by
    rw [Nat.add_assoc, Machine.cycles_add, hs (d + 1)]
  simp only [Options.callRow, hcall, hpc, hindex, hregs]

theorem trace_of_selfJumps (o : Options) {m : Machine Twister} {i : Nat}
    (hset : m.instructions ≠ .idle) (hb : m.state.Bounded) (h : (m.cycles i).SelfJumps) (d : Nat) :
    ∃ last, ((List.range (i + 1)).filterMap (o.callRow m)).getLast? = some last ∧
      (List.range (i + 1 + d)).filterMap (o.callRow m) =
        (List.range (i + 1)).filterMap (o.callRow m) ++
          (List.range d).map fun e => { last with step := i + 1 + e + 1 } := by
  obtain ⟨row, hrow⟩ := callRow_of_selfJumps o hset hb h
  have hlast : o.callRow m i = some { row with step := i + 1 } := hrow 0
  have hrest : ∀ e, o.callRow m (i + 1 + e) = some { row with step := i + 1 + e + 1 } := by
    intro e
    rw [Nat.add_assoc i 1 e]
    exact hrow (1 + e)
  refine ⟨{ row with step := i + 1 }, ?_, ?_⟩
  · rw [List.range_succ, List.filterMap_append]
    simp only [List.filterMap_cons, List.filterMap_nil, hlast]
    exact List.getLast?_concat
  · rw [List.range_add, List.filterMap_append, List.filterMap_map, ← List.filterMap_eq_map]
    congr 2
    funext e
    exact hrest e

/-! ### The main statement -/

section

variable {o : Options} {unseeded : Twister} {p : Program} {m : Machine Twister} {n : Nat}

theorem stops_unstopped (hb : o.Builds unseeded p m)
    (hs : Session.Stops o.rules m n o.maxSteps.toNat)
    (hj : (Session.course o.rules m n).result.reason = .selfJump) (limit : Nat) :
    Session.Stops { o.rules with stopOnSelfJump := false } m limit limit ∧
      (Session.course { o.rules with stopOnSelfJump := false } m limit).ending = none := by
  obtain ⟨-, i, rfl, hi⟩ := reason_result_eq_selfJump_iff.1 hj
  have hend := Session.ending_unstopped hb.instructions_ne hi
    fun j hji => hs.goesOn j (Nat.lt_succ_of_le hji)
  exact ⟨⟨Nat.le_refl limit, fun j _ => hend j, .inl rfl⟩, hend limit⟩

/-- Behind a jump to itself the machine stays where it is while the timers run down. -/
theorem state_of_selfJumps (hb : o.Builds unseeded p m) {i : Nat} (h : (m.cycles i).SelfJumps)
    (d : Nat) :
    (m.cycles (i + 1 + d)).state =
      { (m.cycles (i + 1)).state with
        delayTimer := max ((m.cycles (i + 1)).state.delayTimer -
          Machine.ticks (Machine.period o.frequency) (i + 1) (i + 1 + d)) 0
        soundTimer := max ((m.cycles (i + 1)).state.soundTimer -
          Machine.ticks (Machine.period o.frequency) (i + 1) (i + 1 + d)) 0
        screen := { (m.cycles (i + 1)).state.screen with
          changed := (m.cycles (i + 1 + d)).state.screen.changed } } := by
  have hset := Machine.instructions_cycles_ne hb.instructions_ne
  have hjump : (m.cycles (i + 1)).SelfJumps := Machine.selfJumps_step (hset i) h
  have hbounded := Machine.bounded_cycles hb.bounded (i + 1)
  have hstate := Machine.state_cycles_of_selfJumps (hset (i + 1)) hjump hbounded d
  rw [← Machine.cycles_add, Machine.frequency_cycles, Machine.cycle_cycles, hb.cycle_eq,
    hb.frequency_eq, Nat.zero_add] at hstate
  exact hstate

theorem runsOn_of_stops (hb : o.Builds unseeded p m)
    (hs : Session.Stops o.rules m n o.maxSteps.toNat)
    (hj : (Session.course o.rules m n).result.reason = .selfJump) {limit : Nat} (hle : n ≤ limit) :
    (Session.course o.rules m n).result.RunsOn o limit
      (Session.course { o.rules with stopOnSelfJump := false } m limit).result := by
  have hend := (stops_unstopped hb hs hj limit).2
  have hreport : (Session.course { o.rules with stopOnSelfJump := false } m limit).report? = none := by
    rw [Session.report?, hend]
  obtain ⟨-, i, rfl, hi⟩ := reason_result_eq_selfJump_iff.1 hj
  obtain ⟨d, rfl⟩ := Nat.exists_eq_add_of_le hle
  have hstate := state_of_selfJumps hb hi d
  obtain ⟨last, hlast, htrace⟩ := trace_of_selfJumps o hb.instructions_ne hb.bounded hi d
  rw [Session.result_course, Session.result_course]
  exact {
    status := by rw [Result.status, hreport]; rfl
    reason := Session.reason_eq_stepLimit_iff.2 hend
    steps := rfl
    error := by rw [hreport]; rfl
    screen := by
      dsimp only
      rw [hstate]
      rfl
    finalState := by
      refine ⟨_, rfl, ?_⟩
      dsimp only
      rw [hstate]
      rfl
    trace := by
      intro ht
      have hrow : ∀ j, o.rules.row? (m.cycles j) (j + 1) = o.callRow m j := by
        intro j
        rw [Options.row?_rules, if_pos ht]
      have hrow' : ∀ j, { o.rules with stopOnSelfJump := false }.row? (m.cycles j) (j + 1) =
          o.callRow m j := hrow
      refine ⟨last, ?_, ?_⟩
      · simp only [hrow]
        exact hlast
      · simp only [hrow, hrow', Nat.add_sub_cancel_left]
        exact htrace }

theorem course_run_on (hb : o.Builds unseeded p m)
    (hs : Session.Stops { o.rules with stopOnSelfJump := false } m n o.maxSteps.toNat)
    (hj : ∀ i < n, ¬ (m.cycles i).SelfJumps) :
    ∃ out, run p.bytes { o with stopOnSelfJump := true } unseeded = .ok out ∧
      out.result = (Session.course { o.rules with stopOnSelfJump := false } m n).result := by
  have hc : ∀ i ≤ n, Session.course { o.rules with stopOnSelfJump := true } m i =
      Session.course { o.rules with stopOnSelfJump := false } m i := by
    intro i hi
    exact Session.course_of_not_selfJumps { o.rules with stopOnSelfJump := false } true
      fun j hji => hj j (Nat.lt_of_lt_of_le hji hi)
  have hon : Session.Stops { o.rules with stopOnSelfJump := true } m n o.maxSteps.toNat := by
    refine ⟨hs.le, fun i hi => ?_, ?_⟩
    · rw [hc i (Nat.le_of_lt hi)]
      exact hs.goesOn i hi
    · rw [hc n (Nat.le_refl n)]
      exact hs.stops
  obtain ⟨out, hrun, hres⟩ := run_of_stops (o := { o with stopOnSelfJump := true }) hb hon
  exact ⟨out, hrun, hres.trans (congrArg Session.result (hc n (Nat.le_refl n)))⟩

end

/-- A run that stops at a jump to itself has missed nothing: without the stop rule and with any higher
limit it runs on. A run without the stop rule that executes no jump to itself has the same result
with it. -/
theorem selfJump_stop_lossless (unseeded : Twister) (image : List Byte) (o : Options) :
    (∀ out, run image o unseeded = .ok out → out.result.reason = .selfJump →
      ∀ limit : Nat, out.result.steps ≤ limit → ∃ out',
        run image { o with stopOnSelfJump := false, maxSteps := limit } unseeded = .ok out' ∧
        out.result.RunsOn o limit out'.result) ∧
    (∀ out', run image { o with stopOnSelfJump := false } unseeded = .ok out' →
      (∀ p m, p.bytes = image → o.Builds unseeded p m →
        ∀ i < out'.result.steps, ¬ (m.cycles i).SelfJumps) →
      ∃ out, run image { o with stopOnSelfJump := true } unseeded = .ok out ∧
        out.result = out'.result) := by
  constructor
  · intro out hrun hj limit hle
    rcases run_cases hrun with ⟨f, -, -, hres⟩ | ⟨p, m, n, rfl, hb, hs, hres⟩
    · rw [hres] at hj
      cases hj
    · rw [hres] at hj hle ⊢
      rw [steps_result] at hle
      obtain ⟨hoff, -⟩ := stops_unstopped hb hs hj limit
      obtain ⟨out', hrun', hres'⟩ :=
        run_of_stops (o := { o with stopOnSelfJump := false, maxSteps := limit }) hb hoff
      refine ⟨out', hrun', ?_⟩
      rw [hres']
      exact runsOn_of_stops hb hs hj hle
  · intro out' hrun hj
    rcases run_cases hrun with ⟨f, hpolicy, hp, hres⟩ | ⟨p, m, n, rfl, hb, hs, hres⟩
    · refine ⟨_, run_of_unloadable hpolicy hp, hres.symm⟩
    · rw [hres, steps_result] at hj
      rw [hres]
      exact course_run_on hb hs (hj p m rfl hb)

/-- A jump to itself, and two jumps that go round. -/
theorem selfJump_stop_lossless_loops :
    let o : Options := { maxSteps := 3, randomSeed := some 7, trace := true }
    let unseeded := Twister.seeded 0
    (∃ out, run [0x12, 0x00] o unseeded = .ok out ∧ out.result.reason = .selfJump ∧
      out.result.steps ≤ 5 ∧ ∃ out',
        run [0x12, 0x00] { o with stopOnSelfJump := false, maxSteps := (5 : Nat) } unseeded = .ok out' ∧
        out.result.RunsOn o 5 out'.result) ∧
    ∃ out', run [0x12, 0x02, 0x12, 0x00] { o with stopOnSelfJump := false } unseeded = .ok out' ∧
      (∀ p m, p.bytes = [0x12, 0x02, 0x12, 0x00] → o.Builds unseeded p m →
        ∀ i < out'.result.steps, ¬ (m.cycles i).SelfJumps) ∧
      ∃ out, run [0x12, 0x02, 0x12, 0x00] { o with stopOnSelfJump := true } unseeded = .ok out ∧
        out.result = out'.result := by
  intro o unseeded
  constructor
  · obtain ⟨out, hrun, hj, hle⟩ : ∃ out, run [0x12, 0x00] o unseeded = .ok out ∧
        out.result.reason = .selfJump ∧ out.result.steps ≤ 5 := by
      obtain ⟨out, hrun, hout⟩ : ∃ out, run [0x12, 0x00] o unseeded = .ok out ∧
          (out.result.reason, out.result.steps) = (.selfJump, 1) :=
        exists_run_of_toOption (fun r => (r.reason, r.steps)) (by decide +kernel)
      obtain ⟨hj, hn⟩ := Prod.mk.inj hout
      exact ⟨out, hrun, hj, by omega⟩
    exact ⟨out, hrun, hj, hle, (selfJump_stop_lossless unseeded [0x12, 0x00] o).1 out hrun hj 5 hle⟩
  · obtain ⟨out', hrun, hsteps⟩ : ∃ out',
        run [0x12, 0x02, 0x12, 0x00] { o with stopOnSelfJump := false } unseeded = .ok out' ∧
        out'.result.steps = 3 := exists_run_of_toOption Result.steps (by decide +kernel)
    have hj : ∀ p m, p.bytes = [0x12, 0x02, 0x12, 0x00] → o.Builds unseeded p m →
        ∀ i < out'.result.steps, ¬ (m.cycles i).SelfJumps := by
      intro p m hp hb
      obtain rfl : p = ⟨[0x12, 0x02, 0x12, 0x00], by decide⟩ := by
        cases p
        cases hp
        rfl
      rw [hb.eq, hsteps]
      decide +kernel
    exact ⟨out', hrun, hj, (selfJump_stop_lossless unseeded [0x12, 0x02, 0x12, 0x00] o).2 out' hrun hj⟩

end Chip8.Run
