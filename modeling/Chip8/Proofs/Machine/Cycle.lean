import Chip8.Machine
import Chip8.Proofs.Instruction.Effect

/-!
# Cycles

How one cycle of a machine can end: the fetch fails, the fetched word meets a fault, or the word
takes effect. The main statement is `Machine.step_outcome`, from which everything that a cycle
preserves is derived.
-/

namespace Chip8

namespace Machine

variable {ρ : Type}

/-! ### Before the instruction -/

/-- A timer at the fetch of the next cycle. -/
def ticked (m : Machine ρ) (timer : Int) : Int :=
  if (m.cycle + 1) % period m.frequency = 0 then max (timer - 1) 0 else timer

/-- The state at the fetch of the next cycle. -/
def prepared (m : Machine ρ) : State ρ :=
  { m.state with
    delayTimer := m.ticked m.state.delayTimer
    soundTimer := m.ticked m.state.soundTimer
    screen := m.state.screen.settle }

/-- The word at the program counter. -/
def nextWord (m : Machine ρ) : Word :=
  Word.ofBytes (m.state.memory.byteAt m.state.pc.val) (m.state.memory.byteAt (m.state.pc.val + 1))

/-- The state in which the next word is executed. -/
def fetched (m : Machine ρ) : State ρ := { m.prepared with pc := m.state.pc.moved 2 }

/-- The machine one cycle later, in a given state. -/
def after (m : Machine ρ) (s : State ρ) : Machine ρ := { m with cycle := m.cycle + 1, state := s }

theorem prepare_eq (m : Machine ρ) :
    prepare (period m.frequency) (m.cycle + 1) m.state = m.prepared := by
  unfold prepare prepared ticked
  split <;> rfl

@[simp] theorem stack_fetched (m : Machine ρ) : m.fetched.stack = m.state.stack := rfl
@[simp] theorem registers_fetched (m : Machine ρ) : m.fetched.registers = m.state.registers := rfl
@[simp] theorem keypad_fetched (m : Machine ρ) : m.fetched.keypad = m.state.keypad := rfl
@[simp] theorem screen_fetched (m : Machine ρ) : m.fetched.screen = m.state.screen.settle := rfl

theorem overflow?_fetch {m : Machine ρ} (h : m.state.pc.val + 1 < memorySize) :
    Address.overflow? (m.state.pc.val + 2) = none := by
  simp only [memorySize] at h
  rw [Address.overflow?_eq_none_iff]
  omega

theorem pc_fetched {m : Machine ρ} (h : m.state.pc.val + 1 < memorySize) :
    m.fetched.pc.val = m.state.pc.val + 2 := by
  have hp := Address.val_moved (overflow?_fetch h)
  simp only [fetched]
  omega

theorem toNat_nextWord (m : Machine ρ) :
    m.nextWord.toNat = 256 * (m.state.memory.byteAt m.state.pc.val).toNat
      + (m.state.memory.byteAt (m.state.pc.val + 1)).toNat :=
  Word.toNat_ofBytes _ _

/-! ### The ends of a cycle -/

theorem fetch_of_lt {m : Machine ρ} (h : m.state.pc.val + 1 < memorySize) :
    fetch m.prepared = .ok m.nextWord m.fetched := by
  have hs : Exec.skipNext m.prepared = .ok () m.fetched := by
    rw [Exec.skipNext, Exec.advance_eq]
    have ho : Address.overflow? (m.prepared.pc.val + 2) = none := overflow?_fetch h
    rw [ho]
    rfl
  have hc : ¬ m.prepared.pc.val + 1 ≥ memorySize := Nat.not_le.2 h
  rw [fetch, Exec.bind_get, if_neg hc]
  exact Exec.bind_of_ok hs _

theorem fetch_of_le {m : Machine ρ} (h : memorySize ≤ m.state.pc.val + 1) :
    fetch m.prepared = .error (.fetchPastEnd m.state.pc.val) m.prepared := by
  have hc : m.prepared.pc.val + 1 ≥ memorySize := h
  rw [fetch, Exec.bind_get, if_pos hc]
  rfl

variable [RandomSource ρ]

/-- What a cycle can return and leave. -/
inductive Outcome (m : Machine ρ) : Except Report Word × Machine ρ → Prop
  | unfetched (h : memorySize ≤ m.state.pc.val + 1) :
    Outcome m (.error ⟨.fetchPastEnd m.state.pc.val, m.cycle + 1, m.state.pc.val, none⟩,
      m.after m.prepared)
  | faulted (h : m.state.pc.val + 1 < memorySize) {f : Fault}
    (hf : m.nextWord.fault? m.instructions m.fetched = some f) :
    Outcome m (.error ⟨f, m.cycle + 1, m.state.pc.val, some m.nextWord⟩, m.after m.fetched)
  | executed (h : m.state.pc.val + 1 < memorySize)
    (hf : m.nextWord.fault? m.instructions m.fetched = none) :
    Outcome m (.ok m.nextWord, m.after (m.nextWord.effect m.instructions m.fetched))

theorem step_of_fetch_error {m : Machine ρ} {f : Fault} {s : State ρ}
    (h : fetch m.prepared = .error f s) :
    m.step = (.error ⟨f, m.cycle + 1, m.state.pc.val, none⟩, m.after s) := by
  rw [← prepare_eq] at h
  simp only [step, h]
  rfl

theorem step_of_execute_error {m : Machine ρ} {w : Word} {f : Fault} {s t : State ρ}
    (h : fetch m.prepared = .ok w s) (hw : w.execute m.instructions s = .error f t) :
    m.step = (.error ⟨f, m.cycle + 1, m.state.pc.val, some w⟩, m.after t) := by
  rw [← prepare_eq] at h
  simp only [step, h, hw]
  rfl

theorem step_of_execute_ok {m : Machine ρ} {w : Word} {s t : State ρ}
    (h : fetch m.prepared = .ok w s) (hw : w.execute m.instructions s = .ok () t) :
    m.step = (.ok w, m.after t) := by
  rw [← prepare_eq] at h
  simp only [step, h, hw]
  rfl

theorem step_of_le {m : Machine ρ} (h : memorySize ≤ m.state.pc.val + 1) :
    m.step = (.error ⟨.fetchPastEnd m.state.pc.val, m.cycle + 1, m.state.pc.val, none⟩,
      m.after m.prepared) :=
  step_of_fetch_error (fetch_of_le h)

theorem step_of_fault {m : Machine ρ} {f : Fault} (h : m.state.pc.val + 1 < memorySize)
    (hf : m.nextWord.fault? m.instructions m.fetched = some f) :
    m.step = (.error ⟨f, m.cycle + 1, m.state.pc.val, some m.nextWord⟩, m.after m.fetched) := by
  have hexec := m.nextWord.execute_eq m.instructions m.fetched
  rw [hf] at hexec
  exact step_of_execute_error (fetch_of_lt h) hexec

theorem step_of_no_fault {m : Machine ρ} (h : m.state.pc.val + 1 < memorySize)
    (hf : m.nextWord.fault? m.instructions m.fetched = none) :
    m.step = (.ok m.nextWord, m.after (m.nextWord.effect m.instructions m.fetched)) := by
  have hexec := m.nextWord.execute_eq m.instructions m.fetched
  rw [hf] at hexec
  exact step_of_execute_ok (fetch_of_lt h) hexec

theorem step_outcome (m : Machine ρ) : m.Outcome m.step := by
  by_cases h : m.state.pc.val + 1 < memorySize
  · cases hf : m.nextWord.fault? m.instructions m.fetched with
    | some f =>
      rw [step_of_fault h hf]
      exact .faulted h hf
    | none =>
      rw [step_of_no_fault h hf]
      exact .executed h hf
  · have hp := Nat.not_lt.1 h
    rw [step_of_le hp]
    exact .unfetched hp

/-! ### Keys -/

omit [RandomSource ρ] in
/-- A key that does not exist is refused, and then the machine stays as it is. -/
theorem setKey_cases (m : Machine ρ) (key : Int) (down : Bool) :
    (m.setKey key down).toOption.getD m = m ∨
    ∃ k, (m.setKey key down).toOption.getD m = { m with state := m.state.setKey k down } := by
  unfold setKey
  cases Key.ofInt? key with
  | error e => exact .inl rfl
  | ok k => exact .inr ⟨k, rfl⟩

/-! ### Evaluated cycles -/

theorem step_of_toOption {m : Machine ρ} {w : Word} (h : m.step.1.toOption = some w) :
    m.step = (.ok w, m.step.2) := by
  generalize m.step = result at h ⊢
  obtain ⟨outcome, m'⟩ := result
  cases outcome with
  | error r => cases h
  | ok v =>
    cases h
    rfl

theorem step_of_toOption_eq_none {m : Machine ρ} (h : m.step.1.toOption = none) :
    ∃ r, m.step = (.error r, m.step.2) := by
  generalize m.step = result at h ⊢
  obtain ⟨outcome, m'⟩ := result
  cases outcome with
  | error r => exact ⟨r, rfl⟩
  | ok v => cases h

/-- A machine of the standard set before its first cycle, whose source gives zeros. -/
def started (program : Program) : Machine Cycle := powerOn program .standard 600 .clip ⟨#[], 0⟩

end Machine

end Chip8
