import Chip8.Proofs.Machine.Failure
import Chip8.Proofs.Run.Accounting

/-!
# The record of a run

A run tells what it does twice: the log shows a word before it is executed, the trace shows it
afterwards. `Options.logged` is what the log holds of a step, read off the machine before the step, and
`unskipped` leaves of a log the words that no warning follows. The main statement is
`record_tells_trace`: these are the words of the trace, and behind them the one that ended the run.
-/

namespace Chip8

/-! ### Logs -/

namespace Event

/-- The records of fetched words that are not passed over: no warning stands behind them. -/
def unskipped : List Event → List Event
  | [] => []
  | e :: rest =>
    if e.severity = .debug ∧ rest.head?.map severity ≠ some .warning then e :: unskipped rest
    else unskipped rest

theorem unskipped_append (log : List Event) {rest : List Event}
    (h : rest.head?.map severity ≠ some .warning) :
    unskipped (log ++ rest) = unskipped log ++ unskipped rest := by
  induction log with
  | nil => rfl
  | cons e log ih =>
    have hnext : (log ++ rest).head?.map severity ≠ some .warning ↔
        log.head?.map severity ≠ some .warning := by
      cases log with
      | nil => simpa using h
      | cons e' log => rfl
    simp only [List.cons_append, unskipped, hnext, ih]
    split <;> rfl

def warnings (log : List Event) : Nat := log.countP fun e => e.severity = .warning

theorem warnings_append (log rest : List Event) :
    warnings (log ++ rest) = warnings log + warnings rest :=
  List.countP_append

end Event

/-- The record of the word that a diagnostic names. -/
def Diagnostic.logged? (d : Diagnostic) : Option Event :=
  d.word.map fun w => .fetched d.address.toNat (BitVec.ofInt 16 w)

namespace Run

/-! ### One step -/

/-- What the log holds of the next step of a machine: the word at the program counter, and the warning if
the run passes over it. -/
def Options.logged {ρ : Type} (o : Options) (m : Machine ρ) : List Event :=
  if m.state.pc.val + 1 < memorySize then
    .fetched m.state.pc.val m.nextWord ::
      if o.unknownInstruction = "skip" ∧ m.nextWord.Unassigned then
        [.skipped m.state.pc.val m.nextWord]
      else []
  else []

/-- The outcome of a step at an address and what the log holds of the step. -/
inductive Options.Logs (o : Options) (address : Nat) : Except Report Word → List Event → Prop
  | executed (w : Word) : Logs o address (.ok w) [.fetched address w]
  | skipped {step : Nat} (w : Word) (h : o.unknownInstruction = "skip") :
    Logs o address (.error ⟨.unknownInstruction w, step, address, some w⟩)
      [.fetched address w, .skipped address w]
  | failed {step : Nat} {f : Fault} (w : Word) (h : ¬ o.Tolerates ⟨f, step, address, some w⟩) :
    Logs o address (.error ⟨f, step, address, some w⟩) [.fetched address w]
  | unfetched {step : Nat} {f : Fault} (h : ¬ o.Tolerates ⟨f, step, address, none⟩) :
    Logs o address (.error ⟨f, step, address, none⟩) []

theorem Rules.events_of_not_tolerates {ρ : Type} [RandomSource ρ] {rules : Rules} {m : Machine ρ}
    {r : Report} (hr : m.step.1 = .error r) (h : ¬ rules.Tolerates r) :
    rules.events m = Event.ofCycle m.state.pc.val (.error r) := by
  obtain ⟨fault, step, address, word⟩ := r
  unfold events
  rw [hr]
  cases hp : rules.policy with
  | halt => rfl
  | skip =>
    cases fault with
    | unknownInstruction w => exact absurd ⟨hp, rfl⟩ h
    | _ => rfl

section

variable {ρ : Type} [RandomSource ρ] (o : Options) {m : Machine ρ}

theorem Options.logs_step (hset : m.instructions ≠ .idle) :
    o.Logs m.state.pc.val m.step.1 (o.logged m) := by
  have ho := m.step_outcome
  generalize m.step = result at ho ⊢
  unfold logged
  cases ho with
  | unfetched h =>
    rw [if_neg (Nat.not_lt.2 h)]
    refine .unfetched ?_
    rintro ⟨-, hc⟩
    cases hc
  | faulted h hf =>
    rw [if_pos h]
    rcases Machine.unassigned_cases_of_fault hset h hf with ⟨hu, rfl⟩ | ⟨hu, hc⟩
    · by_cases hp : o.unknownInstruction = "skip"
      · rw [if_pos ⟨hp, hu⟩]
        exact .skipped _ hp
      · rw [if_neg fun hs => hp hs.1]
        exact .failed _ fun ht => hp ht.1
    · rw [if_neg fun hs => hu hs.2]
      exact .failed _ fun ht => hc ht.2
  | executed h hf =>
    have hu : ¬ m.nextWord.Unassigned := by
      intro hu
      rw [Word.fault?, Instruction.decode?_eq_none_iff.2 hu] at hf
      cases hf
    rw [if_pos h, if_neg fun hs => hu hs.2]
    exact .executed _

/-- The log of a session grows by what is read off the machine. -/
theorem Options.reverse_events (hset : m.instructions ≠ .idle) :
    (o.rules.events m).reverse = o.logged m := by
  have hlogs := o.logs_step hset
  generalize ho : m.step.1 = outcome at hlogs
  generalize o.logged m = log at hlogs ⊢
  cases hlogs with
  | executed w =>
    rw [Rules.events, ho]
    cases o.rules.policy <;> rfl
  | skipped w h =>
    have hp : o.rules.policy = .skip := if_pos h
    rw [Rules.events, ho, hp]
    rfl
  | failed w h =>
    rw [Rules.events_of_not_tolerates ho (mt tolerates_rules.1 h)]
    rfl
  | unfetched h =>
    rw [Rules.events_of_not_tolerates ho (mt tolerates_rules.1 h)]
    rfl

omit [RandomSource ρ] in
theorem Options.head_logged (m : Machine ρ) :
    (o.logged m).head?.map Event.severity ≠ some .warning := by
  unfold logged
  split <;> simp [Event.severity]

end

/-! ### Two accounts of a run -/

/-- The record of a row's word. -/
def TraceRow.logged (row : TraceRow) : Event := .fetched row.address row.word

open Event (unskipped warnings)

/-- A log and a trace tell the same story of a number of steps: the words that are not passed over are
those of the rows and, behind them, the one of the error, and every step has left a row or a warning or
is the one of the error. -/
structure Tells (log : List Event) (rows : List TraceRow) (steps : Nat) (error : Option Diagnostic) :
    Prop where
  words : unskipped log = rows.map TraceRow.logged ++ (error.bind Diagnostic.logged?).toList
  steps : warnings log + rows.length + (if error.isSome then 1 else 0) = steps

theorem Tells.append {log log' : List Event} {rows rows' : List TraceRow} {steps steps' : Nat}
    {error : Option Diagnostic} (h : Tells log rows steps none) (h' : Tells log' rows' steps' error)
    (hhead : log'.head?.map Event.severity ≠ some .warning) :
    Tells (log ++ log') (rows ++ rows') (steps + steps') error where
  words := by
    rw [Event.unskipped_append log hhead, h.words, h'.words]
    simp
  steps := by
    have hs := h.steps
    have hs' := h'.steps
    simp only [Option.isSome_none, Bool.false_eq_true, if_false, Nat.add_zero] at hs
    rw [Event.warnings_append, List.length_append]
    omega

section

variable {o : Options} {m : Machine Twister} {n : Nat}

theorem error_course_succ_eq_none (h : ∀ r, m.call n = .error r → o.Tolerates r) :
    (Session.course o.rules m (n + 1)).result.error = none := by
  refine Option.eq_none_iff_forall_ne_some.2 fun d hd => ?_
  obtain ⟨i, r, hi, hr, ht, -⟩ := error_result_iff.1 hd
  obtain rfl := Nat.succ.inj hi
  exact ht (h r hr)

theorem error_course_succ_of_not_tolerates {r : Report} (h : m.call n = .error r)
    (ht : ¬ o.Tolerates r) :
    (Session.course o.rules m (n + 1)).result.error = some r.diagnostic :=
  error_result_iff.2 ⟨n, r, rfl, h, ht, rfl⟩

theorem tells_step (hset : m.instructions ≠ .idle) :
    Tells (o.logged (m.cycles n)) (o.callRow m n).toList 1
      (Session.course o.rules m (n + 1)).result.error := by
  have hlogs := o.logs_step (Machine.instructions_cycles_ne hset n)
  generalize hc : (m.cycles n).step.1 = outcome at hlogs
  replace hc : m.call n = outcome := hc
  generalize o.logged (m.cycles n) = log at hlogs ⊢
  cases hlogs with
  | executed w =>
    obtain ⟨row, hrow⟩ := exists_callRow (o := o) hc
    obtain ⟨hw, -, haddress⟩ := of_callRow hrow
    obtain rfl : w = row.word := Except.ok.inj (hc.symm.trans hw)
    have herror : (Session.course o.rules m (n + 1)).result.error = none := by
      refine error_course_succ_eq_none fun r hr => ?_
      rw [hc] at hr
      cases hr
    rw [herror, hrow, ← haddress]
    exact ⟨rfl, rfl⟩
  | skipped w h =>
    have herror : (Session.course o.rules m (n + 1)).result.error = none := by
      refine error_course_succ_eq_none fun r hr => ?_
      obtain rfl := Except.error.inj (hc.symm.trans hr)
      exact ⟨h, rfl⟩
    rw [herror, callRow_of_error hc]
    exact ⟨rfl, rfl⟩
  | failed w h =>
    rw [error_course_succ_of_not_tolerates hc h, callRow_of_error hc]
    refine ⟨?_, rfl⟩
    simp [unskipped, Event.severity, Report.diagnostic, Diagnostic.logged?]
  | unfetched h =>
    rw [error_course_succ_of_not_tolerates hc h, callRow_of_error hc]
    exact ⟨rfl, rfl⟩

theorem error_course_of_goesOn (h : (Session.course o.rules m n).ending = none) :
    (Session.course o.rules m n).result.error = none := by
  rw [Session.result_course, Session.report?, h]
  rfl

-- by induction on the number of steps: the last of them alone can have ended the run
theorem tells_course (hset : m.instructions ≠ .idle) (ht : o.trace = true)
    (h : ∀ i < n, (Session.course o.rules m i).ending = none) :
    Tells ((List.range n).flatMap fun i => o.logged (m.cycles i))
      (Session.course o.rules m n).result.trace n (Session.course o.rules m n).result.error := by
  simp only [trace_result, ht, if_true]
  induction n with
  | zero => exact ⟨rfl, rfl⟩
  | succ n ih =>
    have hbefore := ih fun i hi => h i (Nat.lt_succ_of_lt hi)
    rw [error_course_of_goesOn (h n (Nat.lt_succ_self n))] at hbefore
    have hrow : [n].filterMap (o.callRow m) = (o.callRow m n).toList := by
      cases hc : o.callRow m n <;> simp [hc]
    rw [List.range_succ, List.flatMap_append, List.filterMap_append, List.flatMap_singleton, hrow]
    exact hbefore.append (tells_step hset) (o.head_logged _)

end

/-! ### Whole runs -/

/-- The record that closes the log of a result. -/
def Result.closing (r : Result) : Event :=
  match r.error with
  | some d => .runStopped r.steps d.message
  | none => .runFinished r.steps r.reason

/-- What the log of a run holds, and that it tells what the trace tells. -/
structure Outcome.Recorded (o : Options) (p : Program) (m : Machine Twister) (out : Outcome) : Prop where
  events : out.events = .runStarted p.bytes.length o.maxSteps o.frequency ::
    (List.range out.result.steps).flatMap (fun i => o.logged (m.cycles i)) ++ [out.result.closing]
  ends : ∀ e ∈ [Event.runStarted p.bytes.length o.maxSteps o.frequency, out.result.closing],
    e.severity = .info ∧ e.origin = .run
  debug : ∀ e ∈ out.events, e.severity = .debug → e.origin = .machine ∧ ∃ address word,
    e = .fetched address word ∧
      e.text = Event.addressText address ++ ": " ++ word.text ++ "  " ++ word.disassemble
  warning : ∀ e ∈ out.events, e.severity = .warning → e.origin = .run ∧ ∃ address word,
    e = .skipped address word ∧
      e.text = "skipping unknown instruction " ++ word.text ++ " at " ++ Event.addressText address
  tells : Tells out.events out.result.trace out.result.steps out.result.error
  rowText : ∀ row ∈ out.result.trace, row.logged.text =
    Event.addressText row.address ++ ": " ++ row.word.text ++ "  " ++ row.text

theorem Options.mem_logged {ρ : Type} {o : Options} {m : Machine ρ} {e : Event} (h : e ∈ o.logged m) :
    e = .fetched m.state.pc.val m.nextWord ∨ e = .skipped m.state.pc.val m.nextWord := by
  unfold logged at h
  split at h
  · split at h
    · simpa using h
    · exact .inl (List.mem_singleton.1 h)
  · cases h

theorem Result.closing_info (r : Result) : r.closing.severity = .info ∧ r.closing.origin = .run := by
  unfold closing
  split <;> exact ⟨rfl, rfl⟩

theorem Tells.enclosed {log : List Event} {rows : List TraceRow} {steps : Nat} {error : Option Diagnostic}
    (h : Tells log rows steps error) {opening closing : Event} (ho : opening.severity = .info)
    (hc : closing.severity = .info) : Tells (opening :: log ++ [closing]) rows steps error where
  words := by
    have hhead : [closing].head?.map Event.severity ≠ some .warning := by simp [hc]
    rw [Event.unskipped_append _ hhead, ← h.words]
    simp [unskipped, ho, hc]
  steps := by
    rw [← h.steps, Event.warnings_append]
    simp [warnings, ho, hc]

section

variable {o : Options} {unseeded : Twister} {p : Program} {m : Machine Twister} {n : Nat}

theorem events_outcomeOf (hset : m.instructions ≠ .idle) : (outcomeOf o p m n).events =
    .runStarted p.bytes.length o.maxSteps o.frequency ::
      (List.range n).flatMap (fun i => o.logged (m.cycles i)) ++
        [(outcomeOf o p m n).result.closing] := by
  have hlog : (Session.course o.rules m n).log.reverse =
      (List.range n).flatMap fun i => o.logged (m.cycles i) := by
    rw [Session.log_course]
    refine List.flatMap_congr fun i _ => ?_
    exact o.reverse_events (Machine.instructions_cycles_ne hset i)
  have hclosing : (Session.course o.rules m n).closingEvent =
      (Session.course o.rules m n).result.closing := by
    unfold Session.closingEvent Result.closing Session.result
    cases (Session.course o.rules m n).report? <;> rfl
  simp only [outcomeOf, List.reverse_cons, hlog, hclosing, List.cons_append]

theorem mem_events_outcomeOf (hset : m.instructions ≠ .idle) {e : Event}
    (he : e ∈ (outcomeOf o p m n).events) :
    e ∈ [Event.runStarted p.bytes.length o.maxSteps o.frequency, (outcomeOf o p m n).result.closing] ∨
    ∃ address word, e = .fetched address word ∨ e = .skipped address word := by
  rw [events_outcomeOf hset, List.cons_append, List.mem_cons, List.mem_append] at he
  rcases he with rfl | he | he
  · exact .inl List.mem_cons_self
  · obtain ⟨i, -, hi⟩ := List.mem_flatMap.1 he
    exact .inr ⟨_, _, Options.mem_logged hi⟩
  · exact .inl (List.mem_cons_of_mem _ he)

theorem recorded_of_stops (hb : o.Builds unseeded p m) (ht : o.trace = true)
    (hs : Session.Stops o.rules m n o.maxSteps.toNat) : (outcomeOf o p m n).Recorded o p m := by
  have hsteps : (outcomeOf o p m n).result.steps = n := steps_result
  have hset := hb.instructions_ne
  have hends : ∀ e ∈ [Event.runStarted p.bytes.length o.maxSteps o.frequency,
      (outcomeOf o p m n).result.closing], e.severity = .info ∧ e.origin = .run := by
    intro e he
    rcases List.mem_pair.1 he with rfl | rfl
    · exact ⟨rfl, rfl⟩
    · exact Result.closing_info _
  exact {
    events := by rw [hsteps, events_outcomeOf hset]
    ends := hends
    debug := by
      intro e he hdebug
      rcases mem_events_outcomeOf hset he with hend | ⟨address, word, rfl | rfl⟩
      · rw [(hends e hend).1] at hdebug
        cases hdebug
      · exact ⟨rfl, address, word, rfl, rfl⟩
      · cases hdebug
    warning := by
      intro e he hwarning
      rcases mem_events_outcomeOf hset he with hend | ⟨address, word, rfl | rfl⟩
      · rw [(hends e hend).1] at hwarning
        cases hwarning
      · cases hwarning
      · exact ⟨rfl, address, word, rfl, rfl⟩
    tells := by
      rw [events_outcomeOf hset, hsteps]
      exact (tells_course hset ht hs.goesOn).enclosed rfl (Result.closing_info _).1
    rowText := fun _ _ => rfl }

end

/-- The log of a run begins and ends with a record of the run, holds the words that the machine fetched
and the warnings behind those that were passed over, and shows the words of the trace and of the error.
A program that is too large leaves no record. -/
theorem record_tells_trace {o : Options} (unseeded : Twister)
    (hpolicy : o.unknownInstruction = "halt" ∨ o.unknownInstruction = "skip") :
    (∀ image : List Byte, maxProgramSize < image.length →
      run image o unseeded = .ok ⟨Result.unloaded (.programTooLarge image.length), []⟩) ∧
    ∀ p m, o.Builds unseeded p m → o.trace = true →
      ∃ out, run p.bytes o unseeded = .ok out ∧ out.Recorded o p m := by
  constructor
  · intro image hsize
    exact run_of_unloadable hpolicy (dif_neg (Nat.not_le.2 hsize))
  · intro p m hb ht
    obtain ⟨n, hs⟩ := Session.exists_stops o.rules m o.maxSteps.toNat
    exact ⟨_, runOn_eq_of_stops hb.1 hb.2 hs, recorded_of_stops hb ht hs⟩

/-- A word that is passed over, a load and a return that ends the run: one warning and one row. -/
theorem record_tells_trace_return :
    let o : Options := { unknownInstruction := "skip", randomSeed := some 7, trace := true }
    let unseeded := Twister.seeded 0
    let p : Program := ⟨[0x00, 0x00, 0x60, 0x05, 0x00, 0xEE], by decide⟩
    let m := ⟨p, .ofLegacyShift o.legacyShift, o.frequency, o.edgeMode, 0, o.startState unseeded p⟩
    run (List.replicate 3585 0) o unseeded = .ok ⟨Result.unloaded (.programTooLarge 3585), []⟩ ∧
    o.Builds unseeded p m ∧ ∃ out, run p.bytes o unseeded = .ok out ∧ out.Recorded o p m ∧
      out.result.steps = 3 ∧ out.result.trace.length = 1 ∧ Event.warnings out.events = 1 := by
  intro o unseeded p m
  obtain ⟨hlarge, hrun⟩ := record_tells_trace (o := o) unseeded (.inr rfl)
  have hb : o.Builds unseeded p m := Options.builds_iff.2 ⟨.inr rfl, by decide, rfl⟩
  have hsize : (List.replicate 3585 (0 : Byte)).length = 3585 := List.length_replicate
  have hunloaded := hlarge (List.replicate 3585 0) (by rw [hsize]; decide)
  rw [hsize] at hunloaded
  obtain ⟨out, hout, hrecorded⟩ := hrun p m hb rfl
  obtain ⟨out', hout', hcounts⟩ : ∃ out, run p.bytes o unseeded = .ok out ∧
      (out.result.steps, out.result.trace.length, out.result.error.isSome) = (3, 1, true) :=
    exists_run_of_toOption (fun r => (r.steps, r.trace.length, r.error.isSome)) (by decide +kernel)
  obtain rfl : out = out' := Except.ok.inj (hout.symm.trans hout')
  obtain ⟨hsteps, hrows, herror⟩ : out.result.steps = 3 ∧ out.result.trace.length = 1 ∧
      out.result.error.isSome = true := by simpa using hcounts
  have hwarnings := hrecorded.tells.steps
  rw [hsteps, hrows, herror, if_pos rfl] at hwarnings
  exact ⟨hunloaded, hb, out, hout, hrecorded, hsteps, hrows, by omega⟩

end Run

end Chip8
