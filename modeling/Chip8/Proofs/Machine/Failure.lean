import Chip8.Proofs.Instruction.Table
import Chip8.Proofs.Machine.Cycle
import Mathlib.Tactic.SplitIfs

/-!
# Failing cycles

When a cycle fails, with which category, and what it leaves behind. `Machine.failure?` reads the
category off the program counter, the fields of the next word and the operands, without decoding
or executing. The main statements are `Machine.step_classified` and `Machine.failure_atomic`.
-/

namespace Chip8

/-! ### Classification -/

/-- The category of the failure of a word, from its fields and the state before it. -/
def Word.failure? {ρ : Type} (s : State ρ) (w : Word) : Option Category :=
  if w.Unassigned then some .unknownInstruction
  else if w = 0x00EE#16 ∧ s.stack.depth = 0 then some .stackUnderflow
  else if w.family = 0x2 ∧ s.stack.depth = 16 then some .stackOverflow
  else if w.family = 0xF ∧ w.nn = 0x1E ∧ s.index.val + (s.register w.x).toNat > 0xFFFF then
    some .addressOverflow
  else if w.family = 0xD ∧ s.index.val + w.n.toNat > 4096 then some .memoryAccess
  else if w.family = 0xF ∧ w.nn = 0x33 ∧ s.index.val + 3 > 4096 then some .memoryAccess
  else if w.family = 0xF ∧ (w.nn = 0x55 ∨ w.nn = 0x65) ∧ s.index.val + w.x.val + 1 > 4096 then
    some .memoryAccess
  else none

theorem Memory.category_outside? (start length : Nat) :
    (outside? memorySize start length).map Fault.category =
      if start + length > 4096 then some .memoryAccess else none := by
  by_cases h : start + length > 4096
  · rw [outside?_of_not_fits (mt fits_memory_iff.1 (Nat.not_le.2 h)), if_pos h]
    rfl
  · rw [outside?_of_fits (fits_memory_iff.2 (Nat.not_lt.1 h)), if_neg h]
    rfl

theorem Address.category_overflow? (n : Nat) :
    (overflow? n).map Fault.category = if n > 0xFFFF then some .addressOverflow else none := by
  unfold overflow?
  by_cases h : n > 0xFFFF
  · rw [if_neg (by omega), if_pos h]
    rfl
  · rw [if_pos (by omega), if_neg h]
    rfl

/-- Behind a fetch, neither a skip nor a wait for a key can leave the range of addresses. -/
theorem Address.overflow?_skip {a : Address} (h : a.val ≤ 4096) : overflow? (a.val + 2) = none := by
  rw [overflow?_eq_none_iff]
  omega

theorem Address.overflow?_wait {a : Address} (h : 2 ≤ a.val) : overflow? (a.val + -2) = none := by
  have hle := a.val_le
  rw [overflow?_eq_none_iff]
  omega

theorem Instruction.category_fault? {ρ : Type} {s : State ρ} {w : Word} {i : Instruction}
    (hw : w.StandsFor i) (h2 : 2 ≤ s.pc.val) (h4096 : s.pc.val ≤ 4096) :
    (i.fault? s).map Fault.category = w.failure? s := by
  have ha := hw.not_unassigned
  have hskip := Address.overflow?_skip h4096
  have hwait := Address.overflow?_wait h2
  have hdepth := s.stack.depth_le
  unfold Word.failure?
  rw [if_neg ha]
  -- the return is named by its whole word, so the families are told apart only after it
  by_cases hE : w = 0x00EE#16
  · obtain rfl := hw.unique (.ret hE)
    have hf : w.family = 0x0 := by rw [hE]; rfl
    by_cases hd : s.stack.depth = 0
    · rw [if_pos ⟨hE, hd⟩]
      simp [fault?, hd, Fault.category]
    · simp [fault?, hf, hd]
  cases hw with
  | clear h =>
    have hf : w.family = 0x0 := by rw [h]; rfl
    simp [fault?, hf, hE]
  | ret h => exact absurd h hE
  | call h =>
    by_cases hd : s.stack.depth = 16
    · simp [fault?, h, hE, hd, Fault.category]
    · have hlt : s.stack.depth < stackSize := by
        simp only [stackSize] at hdepth ⊢
        omega
      simp [fault?, h, hE, hd, hlt]
  | addIndex h hn =>
    have hc := Address.category_overflow? (s.index.val + (s.register w.x).toNat)
    simpa [fault?, h, hn, hE] using hc
  | draw h =>
    have hc := Memory.category_outside? s.index.val w.n.toNat
    simpa [fault?, h, hE] using hc
  | decimal h hn =>
    have hc := Memory.category_outside? s.index.val 3
    simpa [fault?, h, hn, hE] using hc
  | store h hn | load h hn =>
    have hc := Memory.category_outside? s.index.val (w.x.val + 1)
    simpa [fault?, h, hn, hE, Nat.add_assoc] using hc
  | awaitKey h hn => simp [fault?, h, hn, hE, hwait]
  | equalsConst h | differsConst h | equals h | differs h => simp [fault?, h, hE, hskip]
  | keyDown h hn | keyUp h hn => simp [fault?, h, hn, hE, hskip]
  | readDelay h hn | setDelay h hn | setSound h hn | glyph h hn => simp [fault?, h, hn, hE]
  | _ h => simp [fault?, h, hE]

theorem Word.category_fault? {ρ : Type} {set : InstructionSet} (hset : set ≠ .idle) {s : State ρ}
    (w : Word) (h2 : 2 ≤ s.pc.val) (h4096 : s.pc.val ≤ 4096) :
    (w.fault? set s).map Fault.category = w.failure? s := by
  unfold fault?
  cases hd : Instruction.decode? w with
  | none =>
    rw [failure?, if_pos (Instruction.decode?_eq_none_iff.1 hd)]
    rfl
  | some i =>
    simp only [if_neg hset]
    exact Instruction.category_fault? (Instruction.decode?_eq_some_iff.1 hd) h2 h4096

namespace Machine

variable {ρ : Type}

/-- The category of the failure of the next cycle. -/
def failure? (m : Machine ρ) : Option Category :=
  if m.state.pc.val ≥ 4095 then some .memoryAccess else m.nextWord.failure? m.state

theorem failure?_fetched (m : Machine ρ) (w : Word) : w.failure? m.fetched = w.failure? m.state :=
  rfl

theorem category_fault?_fetched {m : Machine ρ} (hset : m.instructions ≠ .idle)
    (h : m.state.pc.val + 1 < memorySize) :
    (m.nextWord.fault? m.instructions m.fetched).map Fault.category = m.failure? := by
  have hp := pc_fetched h
  simp only [memorySize] at h
  have hn : ¬ m.state.pc.val ≥ 4095 := by omega
  rw [failure?, if_neg hn, ← failure?_fetched]
  exact Word.category_fault? hset m.nextWord (by omega) (by omega)

/-- A word that fails stands for no instruction, or has another fault. -/
theorem unassigned_cases_of_fault {m : Machine ρ} (hset : m.instructions ≠ .idle)
    (h : m.state.pc.val + 1 < memorySize) {f : Fault} (hf : m.nextWord.fault? m.instructions m.fetched = some f) :
    (m.nextWord.Unassigned ∧ f = .unknownInstruction m.nextWord) ∨
    (¬ m.nextWord.Unassigned ∧ f.category ≠ .unknownInstruction) := by
  by_cases hu : m.nextWord.Unassigned
  · rw [Word.fault?, Instruction.decode?_eq_none_iff.2 hu] at hf
    exact .inl ⟨hu, (Option.some.inj hf).symm⟩
  · refine .inr ⟨hu, fun hc => ?_⟩
    have hcategory := category_fault?_fetched hset h
    rw [hf, Option.map_some, hc, failure?, Word.failure?, if_neg hu] at hcategory
    split_ifs at hcategory <;> cases hcategory

theorem failure?_eq_addressOverflow {m : Machine ρ} (h : m.failure? = some .addressOverflow) :
    m.state.pc.val ≤ 4094 ∧ m.nextWord.family = 0xF ∧ m.nextWord.nn = 0x1E := by
  unfold failure? at h
  split at h
  · cases h
  · rename_i hp
    refine ⟨by omega, ?_⟩
    unfold Word.failure? at h
    split_ifs at h with h1 h2 h3 h4 h5 h6 h7 <;> cases h
    exact ⟨h4.1, h4.2.1⟩

variable [RandomSource ρ]

/-- A cycle returns the next word or fails, and the program counter, the next word and its operands
alone decide which. Only the addition to the index can overflow. -/
theorem step_classified (m : Machine ρ) (hset : m.instructions ≠ .idle) :
    (m.nextWord.toNat = 256 * (m.state.memory.byteAt m.state.pc.val).toNat
      + (m.state.memory.byteAt (m.state.pc.val + 1)).toNat) ∧
    (match m.failure? with
      | none => m.step.1 = .ok m.nextWord
      | some category => ∃ r, m.step.1 = .error r ∧ r.fault.category = category ∧
        r.step = m.step.2.cycle ∧ r.address = m.state.pc.val ∧
        r.word = if m.state.pc.val ≥ 4095 then none else some m.nextWord) ∧
    (∀ r, m.step.1 = .error r → r.fault.category = .addressOverflow →
      m.state.pc.val ≤ 4094 ∧ m.nextWord.family = 0xF ∧ m.nextWord.nn = 0x1E) := by
  refine ⟨m.toNat_nextWord, ?_⟩
  have ho := m.step_outcome
  generalize m.step = result at ho ⊢
  cases ho with
  | unfetched h =>
    have hp : m.state.pc.val ≥ 4095 := by
      simp only [memorySize] at h
      omega
    refine ⟨?_, fun r hr hc => ?_⟩
    · rw [failure?, if_pos hp]
      exact ⟨_, rfl, rfl, rfl, rfl, by rw [if_pos hp]⟩
    · cases hr
      cases hc
  | faulted h hf =>
    have hc := category_fault?_fetched hset h
    rw [hf, Option.map_some] at hc
    have hp : ¬ m.state.pc.val ≥ 4095 := by
      simp only [memorySize] at h
      omega
    refine ⟨?_, fun r hr ha => ?_⟩
    · rw [← hc]
      exact ⟨_, rfl, rfl, rfl, rfl, by rw [if_neg hp]⟩
    · cases hr
      exact failure?_eq_addressOverflow (by rw [← hc, ← ha])
  | executed h hf =>
    have hc := category_fault?_fetched hset h
    rw [hf, Option.map_none] at hc
    refine ⟨?_, fun r hr => ?_⟩
    · rw [← hc]
    · cases hr

/-- A program that begins with a return. -/
theorem step_classified_return :
    let m := started ⟨[0x00, 0xEE], by decide⟩
    m.instructions ≠ .idle ∧ ∃ r, m.step.1 = .error r ∧ r.fault.category = .stackUnderflow ∧
      r.step = m.step.2.cycle ∧ r.address = 0x200 ∧ r.word = some m.nextWord := by
  intro m
  have hset : m.instructions ≠ .idle := by decide
  have hf : m.failure? = some .stackUnderflow := by decide +kernel
  have h := (step_classified m hset).2.1
  rw [hf] at h
  obtain ⟨r, he, hc, hs, ha, hw⟩ := h
  exact ⟨hset, r, he, hc, hs, ha, hw⟩

end Machine

/-! ### What a failure leaves -/

/-- A word that fails leaves the state as it was. A cycle that fails has counted itself, may have
ticked the timers, has cleared the changed flag and, if the fetch went well, has moved the program
counter behind the word; nothing else differs. -/
theorem Machine.failure_atomic {ρ : Type} [RandomSource ρ] :
    (∀ (set : InstructionSet) (w : Word) (s s' : State ρ) (f : Fault),
      w.execute set s = .error f s' → s' = s) ∧
    (∀ (m m' : Machine ρ) (r : Report), m.step = (.error r, m') →
      m' = { m with
        cycle := m.cycle + 1
        state := { m.state with
          delayTimer := if period m.frequency ∣ m.cycle + 1 then max (m.state.delayTimer - 1) 0
            else m.state.delayTimer
          soundTimer := if period m.frequency ∣ m.cycle + 1 then max (m.state.soundTimer - 1) 0
            else m.state.soundTimer
          screen := { m.state.screen with changed := false }
          pc := m'.state.pc } } ∧
      m'.state.pc.val = (if m.state.pc.val + 1 < memorySize then m.state.pc.val + 2
        else m.state.pc.val)) := by
  constructor
  · intro set w s s' f h
    rw [Word.execute_eq] at h
    cases hf : w.fault? set s with
    | some f' =>
      rw [hf] at h
      cases h
      rfl
    | none =>
      rw [hf] at h
      cases h
  · intro m m' r h
    have ho := m.step_outcome
    rw [h] at ho
    have htick : ∀ timer, m.ticked timer = if period m.frequency ∣ m.cycle + 1 then
        max (timer - 1) 0 else timer := by
      intro timer
      simp only [ticked, Nat.dvd_iff_mod_eq_zero]
    cases ho with
    | unfetched hp =>
      rw [if_neg (Nat.not_lt.2 hp), ← htick, ← htick]
      exact ⟨rfl, rfl⟩
    | faulted hp hf =>
      rw [if_pos hp, ← htick, ← htick]
      exact ⟨rfl, pc_fetched hp⟩

/-- A return without a call, as a word and as a cycle. -/
theorem Machine.failure_atomic_return :
    let m := started ⟨[0x00, 0xEE], by decide⟩
    (∃ s', Word.execute .legacy 0x00EE#16 m.state = .error .stackUnderflow s' ∧ s' = m.state) ∧
    ∃ r, m.step = (.error r, m.step.2) ∧ m.step.2.state.pc.val = m.state.pc.val + 2 := by
  intro m
  constructor
  · have h : Word.execute .legacy 0x00EE#16 m.state = .error .stackUnderflow m.state := by
      rw [Word.execute_eq]
      rfl
    exact ⟨m.state, h, failure_atomic.1 _ _ _ _ _ h⟩
  · obtain ⟨r, h⟩ := step_of_toOption_eq_none (m := m) (by decide +kernel)
    have hp : m.state.pc.val + 1 < memorySize := by decide
    have hpc := (failure_atomic.2 m _ r h).2
    rw [if_pos hp] at hpc
    exact ⟨r, h, hpc⟩

end Chip8
