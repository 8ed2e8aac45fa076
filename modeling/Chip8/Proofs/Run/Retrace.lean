import Chip8.Proofs.Machine.Core
import Chip8.Proofs.Run.Course

/-!
# Traces retraced

A trace with registers can be executed without a machine: row by row, the timers tick for the cycles
since the row before, the program counter is put behind the row's word, and the word is executed.
Steps that left no row have done nothing that a later row could miss. The main statement is
`trace_retraces_run`.
-/

namespace Chip8

/-! ### States but for timers, keys and the source -/

/-- The states have the same registers, index, call stack, memory and pixels. -/
structure State.Agrees {ρ : Type} (s t : State ρ) : Prop where
  registers : s.registers = t.registers
  index : s.index = t.index
  stack : s.stack = t.stack
  memory : s.memory = t.memory
  rows : s.screen.rows = t.screen.rows

theorem State.tick_iterate {ρ : Type} (s : State ρ) (k : Nat) :
    ∃ delay sound, State.tick^[k] s = { s with delayTimer := delay, soundTimer := sound } := by
  induction k with
  | zero => exact ⟨s.delayTimer, s.soundTimer, rfl⟩
  | succ k ih =>
    obtain ⟨delay, sound, hk⟩ := ih
    rw [Function.iterate_succ_apply', hk]
    exact ⟨max (delay - 1) 0, max (sound - 1) 0, rfl⟩

theorem State.Agrees.of_core {ρ : Type} {s t : State ρ} {k : Nat}
    (h : (State.tick^[k] s).core = t.core) : s.Agrees t := by
  obtain ⟨delay, sound, hk⟩ := s.tick_iterate k
  rw [hk] at h
  simp only [core, settled, mk.injEq] at h
  obtain ⟨memory, -, index, stack, -, -, registers, -, screen, -⟩ := h
  simp only [Screen.settle, Screen.mk.injEq] at screen
  exact ⟨registers, index, stack, memory, screen.2.1⟩

namespace Run

/-! ### Executing rows -/

/-- The number of the last row, zero if there is none. -/
def lastStep (rows : List TraceRow) : Nat := (rows.getLast?.map TraceRow.step).getD 0

theorem lastStep_concat (rows : List TraceRow) (row : TraceRow) :
    lastStep (rows ++ [row]) = row.step := by
  rw [lastStep, List.getLast?_concat]
  rfl

section

variable {ρ : Type} [RandomSource ρ]

/-- Executes the word of a row behind the row's address. -/
def TraceRow.execute (set : InstructionSet) (row : TraceRow) : Exec ρ Unit := do
  Exec.setPc (← liftExcept (Address.ofInt (row.address + 2)))
  row.word.execute set

/-- Behind the cycle `last`, the row leads from the state `s` to the state `t`, which has the index and
the registers that the row tells. -/
structure TraceRow.Leads (period : Nat) (set : InstructionSet) (row : TraceRow) (last : Nat)
    (s t : State ρ) : Prop where
  executes : row.execute set (State.tick^[Machine.ticks period last row.step] s) = .ok () t
  index : t.index.val = row.index
  registers : row.registers = some (t.registers.toList.map BitVec.toNat)

/-- The rows, taken in order, lead from the state `start` to the given one. -/
inductive Retraces (period : Nat) (set : InstructionSet) (start : State ρ) :
    List TraceRow → State ρ → Prop
  | nil : Retraces period set start [] start
  | snoc {rows : List TraceRow} {row : TraceRow} {s t : State ρ}
    (hrows : Retraces period set start rows s) (hrow : row.Leads period set (lastStep rows) s t) :
    Retraces period set start (rows ++ [row]) t

theorem TraceRow.execute_eq {set : InstructionSet} (row : TraceRow) {a : Address}
    (h : Address.ofInt (row.address + 2) = .ok a) (s : State ρ) :
    row.execute set s = row.word.execute set { s with pc := a } := by
  rw [execute, h, Exec.bind_lift_ok]
  rfl

theorem row?_cases {rules : Rules} (ht : rules.trace = true) (hr : rules.traceRegisters = true)
    (m : Machine ρ) (s : State ρ) (last : Nat) (hle : last ≤ m.cycle)
    (hcore : (State.tick^[Machine.ticks (Machine.period m.frequency) last m.cycle] s).core =
      m.state.core) :
    (rules.row? m (m.cycle + 1) = none ∧
      (State.tick^[Machine.ticks (Machine.period m.frequency) last (m.cycle + 1)] s).core =
        m.step.2.state.core) ∨
    ∃ row t, rules.row? m (m.cycle + 1) = some row ∧ row.step = m.cycle + 1 ∧
      row.Leads (Machine.period m.frequency) m.instructions last s t ∧
      t.core = m.step.2.state.core := by
  have hnext := Machine.core_tick_iterate hle hcore
  unfold Rules.row?
  rcases m.step_core with ⟨r, he, hs⟩ | ⟨w, hw, hpc, hexec⟩
  · -- a failed step shows in nothing but its tick
    rw [he, hs]
    exact .inl ⟨rfl, hnext⟩
  · obtain ⟨t, hrun, hsettled⟩ := hexec _ hnext
    rw [hw]
    simp only [ht, if_true]
    have hindex : t.index = m.step.2.state.index := by simpa using congrArg State.index hsettled
    have hregs : t.registers = m.step.2.state.registers := by
      simpa using congrArg State.registers hsettled
    let row := rules.row (m.cycle + 1) m.state.pc.val w m.step.2.state
    refine .inr ⟨row, t, rfl, rfl, ?_, State.core_of_settled hsettled⟩
    exact {
      executes := (row.execute_eq hpc _).trans hrun
      index := congrArg Address.val hindex
      registers := by simp only [row, Rules.row, if_pos hr, hregs] }

theorem retraces_rows (rules : Rules) (ht : rules.trace = true) (hr : rules.traceRegisters = true)
    {m : Machine ρ} (hc : m.cycle = 0) (n : Nat) :
    ∃ rows s, ((List.range n).filterMap fun i => rules.row? (m.cycles i) (i + 1)) = rows ∧
      lastStep rows ≤ n ∧ Retraces (Machine.period m.frequency) m.instructions m.state rows s ∧
      (State.tick^[Machine.ticks (Machine.period m.frequency) (lastStep rows) n] s).core =
        (m.cycles n).state.core := by
  -- the state retraced so far lacks the ticks since the last row; the next row makes up for them
  induction n with
  | zero =>
    have h0 : Machine.ticks (Machine.period m.frequency) (lastStep []) 0 = 0 := Machine.ticks_self _ 0
    exact ⟨[], m.state, rfl, Nat.le_refl 0, .nil, by rw [h0]; rfl⟩
  | succ n ih =>
    obtain ⟨rows, s, hrows, hle, htrace, hcore⟩ := ih
    have hstep := row?_cases ht hr (m.cycles n) s (lastStep rows)
    simp only [Machine.cycle_cycles, Machine.frequency_cycles, Machine.instructions_cycles, hc,
      Nat.zero_add] at hstep
    rw [List.range_succ, List.filterMap_append, hrows]
    rcases hstep hle hcore with ⟨hnone, hnext⟩ | ⟨row, t, hsome, hnum, hleads, hnext⟩
    · refine ⟨rows, s, ?_, Nat.le_succ_of_le hle, htrace, hnext⟩
      simp [hnone]
    · refine ⟨rows ++ [row], t, ?_, ?_, .snoc htrace hleads, ?_⟩
      · simp [hsome]
      · rw [lastStep_concat, hnum]
      · rw [lastStep_concat, hnum, Machine.ticks_self]
        exact hnext

end

/-- The trace of a run, retraced from the state at power-on, leads to what the machine has at the end,
however the run ends and whatever it has passed over. -/
theorem trace_retraces_run {o : Options} {unseeded : Twister} {p : Program} {m : Machine Twister}
    (hb : o.Builds unseeded p m) (ht : o.trace = true) (hr : o.traceRegisters = true) :
    ∃ out s, run p.bytes o unseeded = .ok out ∧
      out.result.finalState = some (m.cycles out.result.steps).state.summary ∧
      Retraces (Machine.period o.frequency) (.ofLegacyShift o.legacyShift) (o.startState unseeded p)
        out.result.trace s ∧
      s.Agrees (m.cycles out.result.steps).state := by
  obtain ⟨out, n, hrun, -, hres⟩ := exists_run_of_builds hb
  obtain ⟨rows, s, hrows, -, htrace, hcore⟩ := retraces_rows o.rules ht hr hb.cycle_eq n
  rw [hb.frequency_eq, hb.instructions_eq, hb.state_eq] at htrace
  refine ⟨out, s, hrun, ?_⟩
  rw [hres, Session.result_course, hrows]
  exact ⟨rfl, htrace, .of_core hcore⟩

/-- A random byte, an unknown word that is passed over, a timer that is set and read, and a return
without a call. -/
theorem trace_retraces_run_skip :
    let o : Options := {
      frequency := 120, unknownInstruction := "skip", randomSeed := some 7, keysDown := [5]
      trace := true, traceRegisters := true }
    let unseeded := Twister.seeded 0
    let p : Program :=
      ⟨[0xC0, 0xFF, 0x00, 0x00, 0xF0, 0x15, 0x00, 0x01, 0xF1, 0x07, 0x00, 0xEE], by decide⟩
    let m := ⟨p, .ofLegacyShift o.legacyShift, o.frequency, o.edgeMode, 0, o.startState unseeded p⟩
    o.Builds unseeded p m ∧ o.trace = true ∧ o.traceRegisters = true ∧
      ∃ out s, run p.bytes o unseeded = .ok out ∧
        out.result.finalState = some (m.cycles out.result.steps).state.summary ∧
        Retraces (Machine.period o.frequency) (.ofLegacyShift o.legacyShift) (o.startState unseeded p)
          out.result.trace s ∧
        s.Agrees (m.cycles out.result.steps).state := by
  intro o unseeded p m
  have hb : o.Builds unseeded p m := Options.builds_iff.2 ⟨.inr rfl, by decide, rfl⟩
  exact ⟨hb, rfl, rfl, trace_retraces_run hb rfl rfl⟩

end Run

end Chip8
