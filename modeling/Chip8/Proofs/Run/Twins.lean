import Chip8.Proofs.Machine.Lockstep
import Chip8.Proofs.Run.Course

/-!
# Runs of two machines in step

The rows of a trace and the picture show the program counter, the index, the registers and the pixels of
a machine. Two machines that stay alike in these, and whose cycles return the same, stop alike under the
same rules and leave the same trace; if their summaries stay the same as well, they give the same result,
whatever else tells them apart. The main statements are `runs_of_siblings` and `runs_of_twins`.
-/

namespace Chip8

namespace Machine

variable {ρ : Type} {m m' : Machine ρ}

structure ShowsLike (m m' : Machine ρ) : Prop where
  pc : m'.state.pc.val = m.state.pc.val
  index : m'.state.index.val = m.state.index.val
  registers : m'.state.registers.toList.map BitVec.toNat = m.state.registers.toList.map BitVec.toNat
  rows : m'.state.screen.rows = m.state.screen.rows

theorem ShowsLike.picture (h : m.ShowsLike m') :
    m'.state.screen.picture = m.state.screen.picture := by
  simp only [Screen.picture, Screen.render, h.rows]

structure LooksLike (m m' : Machine ρ) : Prop where
  summary : m'.state.summary = m.state.summary
  rows : m'.state.screen.rows = m.state.screen.rows

namespace LooksLike

theorem showsLike (h : m.LooksLike m') : m.ShowsLike m' where
  pc := congrArg State.Summary.pc h.summary
  index := congrArg State.Summary.index h.summary
  registers := congrArg State.Summary.registers h.summary
  rows := h.rows

theorem beeping (h : m.LooksLike m') : m'.state.beeping = m.state.beeping := by
  have hs : m'.state.soundTimer = m.state.soundTimer :=
    congrArg State.Summary.soundTimer h.summary
  rw [State.beeping, State.beeping, hs]

end LooksLike

variable [RandomSource ρ]

/-- For `n` cycles the machines show the same and their cycles return the same. -/
structure Siblings (m m' : Machine ρ) (n : Nat) : Prop where
  shows : ∀ i ≤ n, (m.cycles i).ShowsLike (m'.cycles i)
  call : ∀ i < n, m'.call i = m.call i

theorem Siblings.mono {n k : Nat} (h : Siblings m m' n) (hk : k ≤ n) : Siblings m m' k :=
  ⟨fun i hi => h.shows i (Nat.le_trans hi hk), fun i hi => h.call i (Nat.lt_of_lt_of_le hi hk)⟩

/-- For `n` cycles the machines look alike and their cycles return the same. -/
structure Twins (m m' : Machine ρ) (n : Nat) : Prop where
  looks : ∀ i ≤ n, (m.cycles i).LooksLike (m'.cycles i)
  call : ∀ i < n, m'.call i = m.call i

theorem Twins.siblings {n : Nat} (h : Twins m m' n) : Siblings m m' n :=
  ⟨fun i hi => (h.looks i hi).showsLike, h.call⟩

theorem Twins.of_commutes {f : Machine ρ → Machine ρ} {n : Nat}
    (hf : ∀ m : Machine ρ, m.LooksLike (f m))
    (h : ∀ i < n, (f (m.cycles i)).step = ((m.cycles i).step.1, f (m.cycles i).step.2)) :
    Twins m (f m) n := by
  obtain ⟨hcycles, hcall⟩ := cycles_of_commutes h
  refine ⟨fun i hi => ?_, hcall⟩
  rw [hcycles i hi]
  exact hf (m.cycles i)

end Machine

namespace Run

namespace Session

variable {ρ : Type} [RandomSource ρ] {m m' : Machine ρ} {n : Nat}

theorem row?_of_siblings (rules : Rules) (h : m.Siblings m' n) {i : Nat} (hi : i < n) (step : Nat) :
    rules.row? (m'.cycles i) step = rules.row? (m.cycles i) step := by
  have hcall : (m'.cycles i).step.1 = (m.cycles i).step.1 := h.call i hi
  have hpc := (h.shows i (Nat.le_of_lt hi)).pc
  have hnext : (m.cycles i).step.2.ShowsLike (m'.cycles i).step.2 := h.shows (i + 1) hi
  unfold Rules.row?
  rw [hcall]
  cases (m.cycles i).step.1 with
  | error r => rfl
  | ok w => simp only [Rules.row, hpc, hnext.index, hnext.registers]

theorem ending_of_siblings (rules : Rules) (h : m.Siblings m' n) :
    (course rules m' n).ending = (course rules m n).ending := by
  cases n with
  | zero => rfl
  | succ i =>
    have hpc := (h.shows i (Nat.le_succ i)).pc
    rw [ending_course_succ, ending_course_succ, h.call i (Nat.lt_succ_self i), hpc]

/-- Siblings can only differ in what the summary says of stack and timers. -/
theorem result_of_siblings (rules : Rules) (h : m.Siblings m' n) :
    (course rules m' n).result =
      { (course rules m n).result with
        finalState := some (m'.cycles n).state.summary
        beeping := (m'.cycles n).state.beeping } := by
  have hending := ending_of_siblings rules h
  have hreason : (course rules m' n).reason = (course rules m n).reason := by
    rw [reason, reason, hending]
  have hreport : (course rules m' n).report? = (course rules m n).report? := by
    rw [report?, report?, hending]
  have htrace : ((List.range n).filterMap fun i => rules.row? (m'.cycles i) (i + 1)) =
      (List.range n).filterMap fun i => rules.row? (m.cycles i) (i + 1) := by
    apply List.filterMap_congr
    intro i hi
    exact row?_of_siblings rules h (List.mem_range.1 hi) (i + 1)
  rw [result_course, result_course, hreason, hreport, htrace, (h.shows n (Nat.le_refl n)).picture]

theorem result_of_twins (rules : Rules) (h : m.Twins m' n) :
    (course rules m' n).result = (course rules m n).result := by
  have hlook := h.looks n (Nat.le_refl n)
  rw [result_of_siblings rules h.siblings, hlook.summary, hlook.beeping, result_course]

theorem stops_of_siblings {rules : Rules} {limit : Nat} (h : m.Siblings m' n)
    (hs : Stops rules m n limit) : Stops rules m' n limit :=
  hs.congr fun _ hi => ending_of_siblings rules (h.mono hi)

end Session

section

variable {o o' : Options} {unseeded : Twister} {p : Program} {m m' : Machine Twister}

/-- Options that differ only in the machine they build stop after as many steps, if the machines are
siblings for as long as one of the runs takes. -/
theorem runs_of_siblings (hb : o.Builds unseeded p m) (hb' : o'.Builds unseeded p m')
    (hrules : o'.rules = o.rules) (hlimit : o'.maxSteps = o.maxSteps) :
    ∃ out out' n, run p.bytes o unseeded = .ok out ∧ run p.bytes o' unseeded = .ok out' ∧
      out.result.steps = n ∧
      out.result = (Session.course o.rules m n).result ∧
      (m.Siblings m' n → out'.result = (Session.course o.rules m' n).result) := by
  obtain ⟨out, n, hrun, hs, hres⟩ := exists_run_of_builds hb
  obtain ⟨out', _, hrun', -, -⟩ := exists_run_of_builds hb'
  refine ⟨out, out', n, hrun, hrun', by rw [hres, Session.result_course], hres, fun h => ?_⟩
  have hs' := Session.stops_of_siblings h hs
  rw [← hrules, ← hlimit] at hs'
  obtain ⟨out'', hrun'', hres''⟩ := run_of_stops hb' hs'
  obtain rfl : out' = out'' := Except.ok.inj (hrun'.symm.trans hrun'')
  rw [hres'', hrules]

/-- Options that differ only in the machine they build give the same result, if the machines are twins
for as long as one of the runs takes. -/
theorem runs_of_twins (hb : o.Builds unseeded p m) (hb' : o'.Builds unseeded p m')
    (hrules : o'.rules = o.rules) (hlimit : o'.maxSteps = o.maxSteps) :
    ∃ out out', run p.bytes o unseeded = .ok out ∧ run p.bytes o' unseeded = .ok out' ∧
      (m.Twins m' out.result.steps → out'.result = out.result) := by
  obtain ⟨out, out', n, hrun, hrun', hn, hres, hsame⟩ := runs_of_siblings hb hb' hrules hlimit
  refine ⟨out, out', hrun, hrun', fun h => ?_⟩
  rw [hn] at h
  rw [hsame h.siblings, hres]
  exact Session.result_of_twins o.rules h

end

end Run

end Chip8
