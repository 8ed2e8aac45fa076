import Chip8.Proofs.Machine.SelfJump
import Chip8.Proofs.Run.Start
import Chip8.Run.Result

/-!
# The course of a run

`Session.course` takes a number of steps come what may, and each part of it is read off the cycles
of the machine. A run is its course up to the step at which it stops, `Session.Stops`. The main
statements are `Session.run_of_stops` and `exists_run_of_builds`.
-/

namespace Chip8.Run

/-! ### One step -/

namespace Rules

variable {ρ : Type} [RandomSource ρ]

/-- How a step at an address ends the run, if it does. -/
def ending? (rules : Rules) (address : Nat) : Except Report Word → Option Ending
  | .ok w => if rules.stopOnSelfJump && isSelfJump w address then some .selfJump else none
  | .error r =>
    match rules.policy, r.fault with
    | .skip, .unknownInstruction _ => none
    | _, _ => some (.fault r)

/-- The row that the next step of a machine leaves in the trace, if it leaves one. -/
def row? (rules : Rules) (m : Machine ρ) (step : Nat) : Option TraceRow :=
  match m.step.1 with
  | .ok w => if rules.trace then some (rules.row step m.state.pc.val w m.step.2.state) else none
  | .error _ => none

/-- The events of the next step of a machine, the newest first. -/
def events (rules : Rules) (m : Machine ρ) : List Event :=
  let passedOver := match rules.policy, m.step.1 with
    | .skip, .error ⟨.unknownInstruction w, _, address, _⟩ => [.skipped address w]
    | _, _ => []
  passedOver ++ Event.ofCycle m.state.pc.val m.step.1

/-- The run passes over the fault. -/
def Tolerates (rules : Rules) (r : Report) : Prop :=
  rules.policy = .skip ∧ r.fault.category = .unknownInstruction

variable {rules : Rules} {address : Nat} {outcome : Except Report Word} {r : Report}

theorem ending?_of_tolerates (h : rules.Tolerates r) : rules.ending? address (.error r) = none := by
  obtain ⟨fault, step, place, word⟩ := r
  obtain ⟨hp, hc⟩ := h
  cases fault with
  | unknownInstruction w => simp only [ending?, hp]
  | _ => cases hc

theorem ending?_of_not_tolerates (h : ¬ rules.Tolerates r) :
    rules.ending? address (.error r) = some (.fault r) := by
  simp only [ending?]
  split
  · rename_i hp hf
    refine absurd ⟨hp, ?_⟩ h
    rw [hf]
    rfl
  · rfl

theorem ending?_eq_selfJump_iff : rules.ending? address outcome = some .selfJump ↔
    rules.stopOnSelfJump = true ∧ ∃ w, outcome = .ok w ∧ w.family = 0x1 ∧ w.nnn.toNat = address := by
  cases outcome with
  | ok w => simp [ending?, isSelfJump]
  | error r =>
    by_cases ht : rules.Tolerates r
    · simp [ending?_of_tolerates ht]
    · simp [ending?_of_not_tolerates ht]

theorem ending?_eq_fault_iff : rules.ending? address outcome = some (.fault r) ↔
    outcome = .error r ∧ ¬ rules.Tolerates r := by
  cases outcome with
  | ok w => simp [ending?]
  | error r' =>
    by_cases ht : rules.Tolerates r'
    · rw [ending?_of_tolerates ht]
      constructor
      · intro h
        cases h
      · rintro ⟨he, hn⟩
        cases he
        exact absurd ht hn
    · rw [ending?_of_not_tolerates ht]
      constructor
      · intro h
        cases h
        exact ⟨rfl, ht⟩
      · rintro ⟨he, -⟩
        cases he
        rfl

/-- A step after which the run goes on has returned a word or met a fault that is passed over. -/
theorem returned_or_tolerated (h : rules.ending? address outcome = none) :
    (∃ w, outcome = .ok w) ∨ ∃ r, outcome = .error r ∧ rules.Tolerates r := by
  cases outcome with
  | ok w => exact .inl ⟨w, rfl⟩
  | error r =>
    by_cases ht : rules.Tolerates r
    · exact .inr ⟨r, rfl, ht⟩
    · rw [ending?_of_not_tolerates ht] at h
      cases h

end Rules

namespace Session

variable {ρ : Type} [RandomSource ρ] (rules : Rules)

theorem advance_eq (s : Session ρ) :
    s.advance rules =
      { machine := s.machine.step.2
        steps := s.steps + 1
        rows := (rules.row? s.machine (s.steps + 1)).toList ++ s.rows
        log := rules.events s.machine ++ s.log
        ending := rules.ending? s.machine.state.pc.val s.machine.step.1 } := by
  obtain ⟨machine, steps, rows, log, ending⟩ := s
  simp only [advance, Rules.row?, Rules.events, Rules.ending?]
  generalize machine.step = result
  obtain ⟨outcome, m'⟩ := result
  cases outcome with
  | ok w => by_cases ht : rules.trace = true <;> simp [ht]
  | error r =>
    obtain ⟨fault, step, place, word⟩ := r
    cases hp : rules.policy <;> cases fault <;> rfl

/-! ### The course -/

/-- The session after a number of steps, whether or not it has ended before. -/
def course (m : Machine ρ) : Nat → Session ρ
  | 0 => { machine := m }
  | n + 1 => (course m n).advance rules

variable (m : Machine ρ) (n : Nat)

@[simp] theorem machine_course : (course rules m n).machine = m.cycles n := by
  induction n with
  | zero => rfl
  | succ n ih => rw [course, advance_eq, ih, Machine.cycles]

@[simp] theorem steps_course : (course rules m n).steps = n := by
  induction n with
  | zero => rfl
  | succ n ih => rw [course, advance_eq, ih]

theorem rows_course : (course rules m n).rows.reverse =
    (List.range n).filterMap fun i => rules.row? (m.cycles i) (i + 1) := by
  induction n with
  | zero => rfl
  | succ n ih =>
    rw [course, advance_eq, List.reverse_append, ih, machine_course, steps_course,
      List.range_succ, List.filterMap_append]
    cases h : rules.row? (m.cycles n) (n + 1) <;> simp [h]

theorem log_course : (course rules m n).log.reverse =
    (List.range n).flatMap fun i => (rules.events (m.cycles i)).reverse := by
  induction n with
  | zero => rfl
  | succ n ih =>
    rw [course, advance_eq, List.reverse_append, ih, machine_course, List.range_succ,
      List.flatMap_append, List.flatMap_singleton]

theorem ending_course_succ : (course rules m (n + 1)).ending =
    rules.ending? (m.cycles n).state.pc.val (m.call n) := by
  rw [course, advance_eq, machine_course]
  rfl

variable {rules m n} in
theorem ending_course_eq_selfJump_iff : (course rules m n).ending = some .selfJump ↔
    rules.stopOnSelfJump = true ∧ ∃ i, n = i + 1 ∧ (m.cycles i).SelfJumps := by
  cases n with
  | zero => simp [course]
  | succ i =>
    rw [ending_course_succ, Rules.ending?_eq_selfJump_iff]
    simp only [Nat.add_right_cancel_iff, exists_eq_left']
    rfl

variable {rules m n} in
theorem ending_course_eq_fault_iff {r : Report} : (course rules m n).ending = some (.fault r) ↔
    ∃ i, n = i + 1 ∧ m.call i = .error r ∧ ¬ rules.Tolerates r := by
  cases n with
  | zero => simp [course]
  | succ i => simp only [ending_course_succ, Rules.ending?_eq_fault_iff, Nat.add_right_cancel_iff,
      exists_eq_left']

theorem result_course : (course rules m n).result =
    { reason := (course rules m n).reason
      steps := n
      finalState := some (m.cycles n).state.summary
      screen := (m.cycles n).state.screen.picture
      beeping := (m.cycles n).state.beeping
      trace := (List.range n).filterMap fun i => rules.row? (m.cycles i) (i + 1)
      error := (course rules m n).report?.map Report.diagnostic } := by
  rw [result, machine_course, steps_course, rows_course]

/-! ### Where a run stops -/

/-- A run with a limit stops after `n` steps. -/
structure Stops (limit : Nat) : Prop where
  le : n ≤ limit
  goesOn : ∀ i < n, (course rules m i).ending = none
  stops : n = limit ∨ (course rules m n).ending.isSome = true

variable {rules m n}

theorem run_of_goesOn (h : ∀ i < n, (course rules m i).ending = none) :
    run rules n { machine := m } = course rules m n := by
  induction n with
  | zero => rfl
  | succ n ih =>
    have hn : ¬ (course rules m n).ending.isSome = true := by
      rw [h n (Nat.lt_succ_self n)]
      exact Bool.false_ne_true
    rw [run_add rules n 1, ih fun i hi => h i (Nat.lt_succ_of_lt hi), run, if_neg hn]
    rfl

theorem run_of_stops {limit : Nat} (h : Stops rules m n limit) :
    run rules limit { machine := m } = course rules m n := by
  obtain ⟨d, rfl⟩ := Nat.exists_eq_add_of_le h.le
  rw [run_add, run_of_goesOn h.goesOn]
  rcases h.stops with hd | he
  · have hz : d = 0 := by omega
    rw [hz, run]
  · exact run_of_ended rules d he

theorem Stops.congr {rules' : Rules} {m' : Machine ρ} {limit : Nat} (hs : Stops rules m n limit)
    (h : ∀ i ≤ n, (course rules' m' i).ending = (course rules m i).ending) :
    Stops rules' m' n limit where
  le := hs.le
  goesOn := by
    intro i hi
    rw [h i (Nat.le_of_lt hi)]
    exact hs.goesOn i hi
  stops := by
    rw [h n (Nat.le_refl n)]
    exact hs.stops

theorem exists_stops (rules : Rules) (m : Machine ρ) (limit : Nat) :
    ∃ n, Stops rules m n limit := by
  induction limit with
  | zero => exact ⟨0, Nat.le_refl 0, fun i hi => absurd hi (Nat.not_lt_zero i), .inl rfl⟩
  | succ limit ih =>
    obtain ⟨n, hn⟩ := ih
    cases he : (course rules m n).ending with
    | some e =>
      refine ⟨n, Nat.le_succ_of_le hn.le, hn.goesOn, .inr ?_⟩
      rw [he]
      rfl
    | none =>
      -- nothing has ended the run, so it had stopped at the old limit and now takes one more step
      have hl : n = limit := by
        rcases hn.stops with hl | hs
        · exact hl
        · rw [he] at hs
          cases hs
      subst hl
      refine ⟨n + 1, Nat.le_refl _, fun i hi => ?_, .inl rfl⟩
      rcases Nat.lt_succ_iff_lt_or_eq.1 hi with hi | rfl
      · exact hn.goesOn i hi
      · exact he

end Session

/-! ### Whole runs -/

/-- What a run leaves that stopped after `n` steps. -/
def outcomeOf {ρ : Type} [RandomSource ρ] (o : Options) (p : Program) (m : Machine ρ) (n : Nat) :
    Outcome where
  result := (Session.course o.rules m n).result
  events := .runStarted p.bytes.length o.maxSteps o.frequency ::
    ((Session.course o.rules m n).closingEvent :: (Session.course o.rules m n).log).reverse

theorem runOn_eq_of_stops {ρ : Type} [RandomSource ρ] {o : Options} {source : ρ} {p : Program}
    {m : Machine ρ} {n : Nat}
    (hpolicy : o.unknownInstruction = "halt" ∨ o.unknownInstruction = "skip")
    (hm : o.machineOn? source p = .ok m) (hs : Session.Stops o.rules m n o.maxSteps.toNat) :
    runOn source p.bytes o = .ok (outcomeOf o p m n) := by
  have hr : o.rules? = .ok o.rules := Options.rules?_eq_ok_iff.2 ⟨hpolicy, rfl⟩
  have hp : Program.ofBytes p.bytes = .ok p := Program.ofBytes_eq_ok_iff.2 rfl
  rw [runOn, hr]
  simp only [bind, Except.bind, hp, hm, Session.run_of_stops hs]
  rfl

theorem runOn_of_stops {ρ : Type} [RandomSource ρ] {o : Options} {source : ρ} {p : Program}
    {m : Machine ρ} {n : Nat}
    (hpolicy : o.unknownInstruction = "halt" ∨ o.unknownInstruction = "skip")
    (hm : o.machineOn? source p = .ok m) (hs : Session.Stops o.rules m n o.maxSteps.toNat) :
    ∃ out, runOn source p.bytes o = .ok out ∧
      out.result = (Session.course o.rules m n).result :=
  ⟨outcomeOf o p m n, runOn_eq_of_stops hpolicy hm hs, rfl⟩

theorem run_of_stops {o : Options} {unseeded : Twister} {p : Program} {m : Machine Twister} {n : Nat}
    (hb : o.Builds unseeded p m) (hs : Session.Stops o.rules m n o.maxSteps.toNat) :
    ∃ out, run p.bytes o unseeded = .ok out ∧ out.result = (Session.course o.rules m n).result :=
  runOn_of_stops hb.1 hb.2 hs

/-- With a seed the run does not depend on what the system would have seeded. -/
theorem run_of_seed {o : Options} {seed : Int} (h : o.randomSeed = some seed) (image : List Byte)
    (unseeded unseeded' : Twister) : run image o unseeded = run image o unseeded' := by
  simp only [run, Options.sourceOr, h]

/-- Accepted options always give a result. -/
theorem exists_run_of_builds {o : Options} {unseeded : Twister} {p : Program} {m : Machine Twister}
    (hb : o.Builds unseeded p m) : ∃ out n, run p.bytes o unseeded = .ok out ∧
      Session.Stops o.rules m n o.maxSteps.toNat ∧
      out.result = (Session.course o.rules m n).result := by
  obtain ⟨n, hs⟩ := Session.exists_stops o.rules m o.maxSteps.toNat
  obtain ⟨out, hrun, hres⟩ := run_of_stops hb hs
  exact ⟨out, n, hrun, hs, hres⟩

theorem run_of_unloadable {o : Options} {unseeded : Twister} {image : List Byte} {f : Fault}
    (hpolicy : o.unknownInstruction = "halt" ∨ o.unknownInstruction = "skip")
    (hp : Program.ofBytes image = .error f) :
    run image o unseeded = .ok ⟨Result.unloaded f, []⟩ := by
  rw [run, runOn, Options.rules?_eq_ok_iff.2 ⟨hpolicy, rfl⟩]
  simp only [bind, Except.bind, hp]
  rfl

theorem exists_run {o : Options} (unseeded : Twister) (image : List Byte)
    (hpolicy : o.unknownInstruction = "halt" ∨ o.unknownInstruction = "skip")
    (hkeys : ∀ key ∈ o.keysDown, 0 ≤ key ∧ key ≤ 15) :
    ∃ out, run image o unseeded = .ok out := by
  cases hp : Program.ofBytes image with
  | error f => exact ⟨_, run_of_unloadable hpolicy hp⟩
  | ok p =>
    obtain rfl := Program.ofBytes_eq_ok_iff.1 hp
    obtain ⟨out, -, hrun, -⟩ := exists_run_of_builds (Options.builds_iff.2 ⟨hpolicy, hkeys, rfl⟩)
    exact ⟨out, hrun⟩

/-- A run that gives a result could not load the program, or has built a machine. -/
theorem run_cases {image : List Byte} {o : Options} {unseeded : Twister} {out : Outcome}
    (h : run image o unseeded = .ok out) :
    (∃ f, (o.unknownInstruction = "halt" ∨ o.unknownInstruction = "skip") ∧
      Program.ofBytes image = .error f ∧ out.result = Result.unloaded f) ∨
    ∃ p m n, p.bytes = image ∧ o.Builds unseeded p m ∧ Session.Stops o.rules m n o.maxSteps.toNat ∧
      out.result = (Session.course o.rules m n).result := by
  cases hr : o.rules? with
  | error e =>
    rw [run, runOn, hr] at h
    cases h
  | ok rules =>
    obtain ⟨hpolicy, -⟩ := Options.rules?_eq_ok_iff.1 hr
    cases hp : Program.ofBytes image with
    | error f =>
      rw [run_of_unloadable hpolicy hp] at h
      cases h
      exact .inl ⟨f, hpolicy, rfl, rfl⟩
    | ok p =>
      obtain rfl := Program.ofBytes_eq_ok_iff.1 hp
      cases hm : o.machine? unseeded p with
      | error e =>
        have hm' : o.machineOn? (o.sourceOr unseeded) p = .error e := hm
        rw [run, runOn, hr] at h
        simp only [bind, Except.bind, hp, hm'] at h
        cases h
      | ok m =>
        have hb : o.Builds unseeded p m := ⟨hpolicy, hm⟩
        obtain ⟨out', n, hrun, hs, hres⟩ := exists_run_of_builds hb
        rw [h] at hrun
        cases hrun
        exact .inr ⟨p, m, n, rfl, hb, hs, hres⟩

theorem exists_run_of_toOption {α : Type} {image : List Byte} {o : Options} {unseeded : Twister}
    (f : Result → α) {a : α}
    (h : ((run image o unseeded).toOption.map fun out => f out.result) = some a) :
    ∃ out, run image o unseeded = .ok out ∧ f out.result = a := by
  cases hr : run image o unseeded with
  | error e =>
    rw [hr] at h
    cases h
  | ok out =>
    rw [hr] at h
    exact ⟨out, rfl, Option.some.inj h⟩

end Chip8.Run
