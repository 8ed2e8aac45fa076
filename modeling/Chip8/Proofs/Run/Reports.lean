import Chip8.Proofs.Run.Accounting

/-!
# What runs report

No instruction meets the fault of a program that is too large, so a run of a program that fits never
reports it. The main statement is `Run.exists_runOn`.
-/

namespace Chip8

/-! ### Faults of instructions -/

theorem Address.overflow?_ne_programTooLarge (v : Int) (size : Nat) :
    overflow? v ≠ some (.programTooLarge size) := by
  unfold overflow?
  split <;> simp

theorem Memory.outside?_ne_programTooLarge (n : Nat) (address length : Int) (size : Nat) :
    outside? n address length ≠ some (.programTooLarge size) := by
  unfold outside?
  split <;> simp

theorem Instruction.fault?_ne_programTooLarge {ρ : Type} (i : Instruction) (s : State ρ) (size : Nat) :
    i.fault? s ≠ some (.programTooLarge size) := by
  cases i with
  | ret | call _ =>
    simp only [fault?]
    split <;> simp
  | skip _ | awaitKey _ =>
    simp only [fault?]
    split <;> simp [Address.overflow?_ne_programTooLarge]
  | addIndex _ => exact Address.overflow?_ne_programTooLarge _ size
  | draw _ _ _ | decimal _ | store _ | load _ => exact Memory.outside?_ne_programTooLarge _ _ _ size
  | _ => simp [fault?]

theorem Word.fault?_ne_programTooLarge {ρ : Type} (set : InstructionSet) (s : State ρ) (w : Word)
    (size : Nat) : w.fault? set s ≠ some (.programTooLarge size) := by
  unfold fault?
  cases Instruction.decode? w with
  | none => simp
  | some i =>
    by_cases hset : set = .idle
    · simp [hset]
    · simp only [if_neg hset]
      exact i.fault?_ne_programTooLarge s size

theorem Fault.category_eq_programTooLarge {f : Fault} (h : f.category = .programTooLarge) :
    ∃ size, f = .programTooLarge size := by
  cases f with
  | programTooLarge size => exact ⟨size, rfl⟩
  | _ => cases h

theorem Category.eq_of_name {c c' : Category} (h : c.name = c'.name) : c = c' := by
  cases c <;> cases c' <;> simp_all [name]

namespace Machine

variable {ρ : Type} [RandomSource ρ]

theorem category_of_report {m : Machine ρ} {r : Report} (h : m.step.1 = .error r) :
    r.fault.category ≠ .programTooLarge := by
  intro hc
  obtain ⟨size, hf⟩ := Fault.category_eq_programTooLarge hc
  have ho := m.step_outcome
  generalize m.step = result at ho h
  cases ho with
  | unfetched =>
    cases h
    cases hf
  | faulted hp hw =>
    cases h
    obtain rfl := hf
    exact m.nextWord.fault?_ne_programTooLarge _ _ size hw
  | executed => cases h

end Machine

/-! ### Runs -/

namespace Run

variable {ρ : Type} [RandomSource ρ] {o : Options}

theorem Session.category_error {rules : Rules} {m : Machine ρ} {n : Nat} {d : Diagnostic}
    (h : (course rules m n).result.error = some d) : d.category.name ≠ "ProgramTooLarge" := by
  rw [result_course, Option.map_eq_some_iff] at h
  obtain ⟨r, hr, rfl⟩ := h
  obtain ⟨i, -, hcall, -⟩ := ending_course_eq_fault_iff.1 (report?_eq_some_iff.1 hr)
  intro hn
  have hc : r.fault.category = .programTooLarge := Category.eq_of_name hn
  exact Machine.category_of_report hcall hc

/-- A program that fits and accepted options give a result on every source. -/
theorem exists_runOn (source : ρ) {image : List Byte} (hsize : image.length ≤ maxProgramSize)
    (hpolicy : o.unknownInstruction = "halt" ∨ o.unknownInstruction = "skip")
    (hkeys : ∀ key ∈ o.keysDown, 0 ≤ key ∧ key ≤ 15) :
    ∃ out, runOn source image o = .ok out ∧
      ∀ d, out.result.error = some d → d.category.name ≠ "ProgramTooLarge" := by
  let p : Program := ⟨image, hsize⟩
  obtain ⟨m, hm⟩ : ∃ m, o.machineOn? source p = .ok m :=
    ⟨_, Machine.foldlM_press_eq_ok_iff.2 ⟨hkeys, rfl⟩⟩
  obtain ⟨n, hs⟩ := Session.exists_stops o.rules m o.maxSteps.toNat
  obtain ⟨out, hrun, hres⟩ := runOn_of_stops hpolicy hm hs
  refine ⟨out, hrun, fun d hd => ?_⟩
  rw [hres] at hd
  exact Session.category_error hd

end Run

end Chip8
