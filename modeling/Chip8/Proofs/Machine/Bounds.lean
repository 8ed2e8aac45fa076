import Chip8.Machine.History
import Chip8.Proofs.Instruction.Component
import Chip8.Proofs.Machine.Failure

/-!
# Bounds of reachable states

The types bound bytes, addresses and rows. Left open are the reach of the program counter, of the
return addresses and of the timers, which bound each other: a return address lies behind a fetched
word, and the farthest jump is that with an offset. `State.Bounded` is kept by every command. The
main statement is `Machine.replay_in_range`.
-/

namespace Chip8

namespace CallStack

variable {s : CallStack} {a b : Address}

theorem mem_of_mem_pushed (h : b ∈ (s.pushed a).toList) : b ∈ s.toList ∨ b = a := by
  have hp := push_eq s a
  by_cases hd : s.depth < stackSize
  · rw [if_pos hd] at hp
    rw [toList_push hp, List.mem_append, List.mem_singleton] at h
    exact h
  · rw [pushed, hp, if_neg hd] at h
    exact .inl h

theorem mem_of_mem_popped (h : b ∈ s.popped.toList) : b ∈ s.toList := by
  have hp := pop_eq s
  by_cases hd : s.depth = 0
  · have hl : s.newestFirst = [] := List.length_eq_zero_iff.1 hd
    simp [popped, toList, hl] at h
  · rw [if_neg hd] at hp
    rw [toList_pop hp, List.mem_append]
    exact .inl h

theorem top_le {n : Nat} (h : ∀ a ∈ s.toList, a.val ≤ n) : s.top.val ≤ n := by
  have hp := pop_eq s
  by_cases hd : s.depth = 0
  · have hl : s.newestFirst = [] := List.length_eq_zero_iff.1 hd
    simp [top, hl, Address.zero]
  · rw [if_neg hd] at hp
    apply h
    rw [toList_pop hp, List.mem_append, List.mem_singleton]
    exact .inr rfl

end CallStack

theorem Byte.toNat_range (b : Byte) : 0 ≤ (b.toNat : Int) ∧ (b.toNat : Int) ≤ 255 := by
  have hb : b.toNat < 2 ^ 8 := b.isLt
  omega

/-- What the operations keep of a state beyond its type. -/
structure State.Bounded {ρ : Type} (s : State ρ) : Prop where
  pc : s.pc.val ≤ 0x10FE
  stack : ∀ a ∈ s.stack.toList, 2 ≤ a.val ∧ a.val ≤ 4096
  delayTimer : 0 ≤ s.delayTimer ∧ s.delayTimer ≤ 255
  soundTimer : 0 ≤ s.soundTimer ∧ s.soundTimer ≤ 255

/-! ### One instruction -/

namespace Instruction

variable {ρ : Type} [RandomSource ρ] {set : InstructionSet} {s : State ρ}

theorem pc_effect_le (i : Instruction) (h2 : 2 ≤ s.pc.val) (h4096 : s.pc.val ≤ 4096)
    (hs : ∀ a ∈ s.stack.toList, a.val ≤ 4096) : (i.effect set s).pc.val ≤ 0x10FE := by
  rw [pc_effect]
  cases i with
  | ret =>
    have ht := CallStack.top_le hs
    show s.stack.top.val ≤ 0x10FE
    omega
  | jump target | call target =>
    have ht : target.toNat < 2 ^ 12 := target.isLt
    show target.toNat ≤ 0x10FE
    omega
  | skip condition =>
    have hm := Address.val_moved (Address.overflow?_skip h4096)
    dsimp only
    split <;> omega
  | jumpOffset target =>
    have ht : target.toNat < 2 ^ 12 := target.isLt
    have hv : (s.register .first).toNat < 2 ^ 8 := (s.register .first).isLt
    have hm := Address.val_moved (overflow?_jumpOffset target (s.register .first))
    have hb : (Address.ofBits target).val = target.toNat := rfl
    dsimp only
    omega
  | awaitKey x =>
    have hm := Address.val_moved (Address.overflow?_wait h2)
    dsimp only
    split <;> omega
  | _ =>
    show s.pc.val ≤ 0x10FE
    omega

theorem mem_of_mem_stack_effect {i : Instruction} {a : Address}
    (h : a ∈ (i.effect set s).stack.toList) : a ∈ s.stack.toList ∨ a = s.pc := by
  rw [stack_effect] at h
  cases i with
  | ret => exact .inl (CallStack.mem_of_mem_popped h)
  | call target => exact CallStack.mem_of_mem_pushed h
  | _ => exact .inl h

theorem delayTimer_effect_range (i : Instruction) (h : 0 ≤ s.delayTimer ∧ s.delayTimer ≤ 255) :
    0 ≤ (i.effect set s).delayTimer ∧ (i.effect set s).delayTimer ≤ 255 := by
  rw [delayTimer_effect]
  cases i with
  | setDelay x => exact (s.register x).toNat_range
  | _ => exact h

theorem soundTimer_effect_range (i : Instruction) (h : 0 ≤ s.soundTimer ∧ s.soundTimer ≤ 255) :
    0 ≤ (i.effect set s).soundTimer ∧ (i.effect set s).soundTimer ≤ 255 := by
  rw [soundTimer_effect]
  cases i with
  | setSound x => exact (s.register x).toNat_range
  | _ => exact h

end Instruction

/-! ### One command -/

namespace State.Bounded

variable {ρ : Type} {s : State ρ}

theorem powerOn (program : Program) (mode : EdgeMode) (random : ρ) :
    (State.powerOn program mode random).Bounded where
  pc := by
    show 0x200 ≤ 0x10FE
    omega
  stack := by
    intro a ha
    cases ha
  delayTimer := by
    show (0 : Int) ≤ 0 ∧ (0 : Int) ≤ 255
    omega
  soundTimer := by
    show (0 : Int) ≤ 0 ∧ (0 : Int) ≤ 255
    omega

theorem key (h : s.Bounded) (k : Key) (down : Bool) : (s.setKey k down).Bounded :=
  ⟨h.pc, h.stack, h.delayTimer, h.soundTimer⟩

variable [RandomSource ρ]

theorem instruction (h : s.Bounded) (h2 : 2 ≤ s.pc.val) (h4096 : s.pc.val ≤ 4096)
    (set : InstructionSet) (i : Instruction) : (i.effect set s).Bounded where
  pc := i.pc_effect_le h2 h4096 fun a ha => (h.stack a ha).2
  stack := by
    intro a ha
    rcases Instruction.mem_of_mem_stack_effect ha with ha | rfl
    · exact h.stack a ha
    · exact ⟨h2, h4096⟩
  delayTimer := i.delayTimer_effect_range h.delayTimer
  soundTimer := i.soundTimer_effect_range h.soundTimer

theorem word (h : s.Bounded) (h2 : 2 ≤ s.pc.val) (h4096 : s.pc.val ≤ 4096)
    (set : InstructionSet) (w : Word) : (w.effect set s).Bounded := by
  unfold Word.effect
  cases Instruction.decode? w with
  | none => exact h
  | some i =>
    by_cases hset : set = .idle
    · simp only [if_pos hset]
      exact h
    · simp only [if_neg hset]
      exact h.instruction h2 h4096 set i

end State.Bounded

namespace Machine

variable {ρ : Type} {m : Machine ρ}

theorem ticked_range {timer : Int} (h : 0 ≤ timer ∧ timer ≤ 255) :
    0 ≤ m.ticked timer ∧ m.ticked timer ≤ 255 := by
  unfold ticked
  split <;> omega

theorem bounded_prepared (h : m.state.Bounded) : m.prepared.Bounded :=
  ⟨h.pc, h.stack, ticked_range h.delayTimer, ticked_range h.soundTimer⟩

theorem bounded_fetched (h : m.state.Bounded) (hp : m.state.pc.val + 1 < memorySize) :
    m.fetched.Bounded where
  pc := by
    have hf := pc_fetched hp
    simp only [memorySize] at hp
    omega
  stack := h.stack
  delayTimer := ticked_range h.delayTimer
  soundTimer := ticked_range h.soundTimer

variable [RandomSource ρ]

theorem bounded_step (h : m.state.Bounded) : m.step.2.state.Bounded := by
  have ho := m.step_outcome
  generalize m.step = result at ho ⊢
  cases ho with
  | unfetched hp => exact bounded_prepared h
  | faulted hp hf => exact bounded_fetched h hp
  | executed hp hf =>
    have hpc := pc_fetched hp
    simp only [memorySize] at hp
    exact (bounded_fetched h hp).word (by omega) (by omega) m.instructions m.nextWord

omit [RandomSource ρ] in
theorem bounded_setKey (h : m.state.Bounded) (key : Int) (down : Bool) :
    ((m.setKey key down).toOption.getD m).state.Bounded := by
  rcases m.setKey_cases key down with he | ⟨k, he⟩
  · rw [he]
    exact h
  · rw [he]
    exact h.key k down

theorem bounded_perform (h : m.state.Bounded) (command : Command) :
    (m.perform command).state.Bounded := by
  cases command with
  | step => exact bounded_step h
  | press key => exact bounded_setKey h key true
  | release key => exact bounded_setKey h key false
  | reset => exact .powerOn _ _ _

/-! ### Every history -/

theorem bounded_replay (h : m.state.Bounded) (history : List Command) :
    (m.replay history).state.Bounded := by
  induction history generalizing m with
  | nil => exact h
  | cons command rest ih => exact ih (bounded_perform h command)

theorem Reachable.bounded (h : Reachable m) : m.state.Bounded := by
  induction h with
  | powerOn program set frequency mode random => exact .powerOn program mode random
  | perform command _ ih => exact bounded_perform ih command

omit [RandomSource ρ] in
/-- The program counter can be moved behind a word and from there over another or back. -/
theorem advance_of_bounded (h : m.state.Bounded) :
    ∃ s, Exec.skipNext m.prepared = .ok () s ∧ s.pc.val = m.state.pc.val + 2 ∧
      (∃ t, Exec.skipNext s = .ok () t) ∧ ∃ t, Exec.advance (-2) s = .ok () t := by
  have hpc := h.pc
  have ho : Address.overflow? (m.state.pc.val + 2) = none := by
    rw [Address.overflow?_eq_none_iff]
    omega
  have hm := Address.val_moved ho
  have hskip : Address.overflow? ((m.state.pc.moved 2).val + 2) = none := by
    rw [Address.overflow?_eq_none_iff]
    omega
  have hback : Address.overflow? ((m.state.pc.moved 2).val + -2) = none := by
    rw [Address.overflow?_eq_none_iff]
    omega
  refine ⟨m.fetched, ?_, ?_, ⟨{ m.fetched with pc := (m.state.pc.moved 2).moved 2 }, ?_⟩,
    ⟨{ m.fetched with pc := (m.state.pc.moved 2).moved (-2) }, ?_⟩⟩
  · rw [Exec.skipNext, Exec.advance_eq]
    have hp : Address.overflow? (m.prepared.pc.val + 2) = none := ho
    rw [hp]
    rfl
  · show (m.state.pc.moved 2).val = m.state.pc.val + 2
    omega
  · rw [Exec.skipNext, Exec.advance_eq]
    have hp : Address.overflow? (m.fetched.pc.val + 2) = none := hskip
    rw [hp]
    rfl
  · rw [Exec.advance_eq]
    have hp : Address.overflow? (m.fetched.pc.val + -2) = none := hback
    rw [hp]
    rfl

/-- After every history the components of the state are in range, and no distance that a cycle adds
to the program counter leads out of the range of addresses. -/
theorem replay_in_range (program : Program) (set : InstructionSet) (frequency : Int)
    (mode : EdgeMode) (random : ρ) (history : List Command) :
    let m := (powerOn program set frequency mode random).replay history
    m.state.pc.val ≤ 0x10FE ∧
    m.state.stack.depth ≤ 16 ∧ m.state.stack.toList.length = m.state.stack.depth ∧
    (∀ a ∈ m.state.stack.toList, 2 ≤ a.val ∧ a.val ≤ 4096) ∧
    m.state.index.val ≤ 0xFFFF ∧
    m.state.memory.toList.length = 4096 ∧ (∀ b ∈ m.state.memory.toList, b.toNat ≤ 255) ∧
    m.state.registers.toList.length = 16 ∧ (∀ b ∈ m.state.registers.toList, b.toNat ≤ 255) ∧
    m.state.keypad.toList.length = 16 ∧
    (0 ≤ m.state.delayTimer ∧ m.state.delayTimer ≤ 255) ∧
    (0 ≤ m.state.soundTimer ∧ m.state.soundTimer ≤ 255) ∧
    m.state.screen.rows.toList.length = 32 ∧
    (∀ row ∈ m.state.screen.rows.toList, row.toNat ≤ 0xFFFFFFFFFFFFFFFF) ∧
    ∃ s, Exec.skipNext m.prepared = .ok () s ∧ s.pc.val = m.state.pc.val + 2 ∧
      (∃ t, Exec.skipNext s = .ok () t) ∧ ∃ t, Exec.advance (-2) s = .ok () t := by
  intro m
  have h : m.state.Bounded := bounded_replay (.powerOn program mode random) history
  have hbyte : ∀ b : Byte, b.toNat ≤ 255 := fun b => Nat.le_of_lt_succ b.isLt
  have hrow : ∀ row : Row, row.toNat ≤ 0xFFFFFFFFFFFFFFFF := fun row => Nat.le_of_lt_succ row.isLt
  exact ⟨h.pc, m.state.stack.depth_le, m.state.stack.length_toList, h.stack,
    m.state.index.val_le, Vector.length_toList, fun b _ => hbyte b, Vector.length_toList,
    fun b _ => hbyte b, Vector.length_toList, h.delayTimer, h.soundTimer, Vector.length_toList,
    fun row _ => hrow row, advance_of_bounded h⟩

/-- A program that begins with a call. -/
theorem replay_in_range_call :
    ⟨0x202, by decide⟩ ∈ ((powerOn ⟨[0x22, 0x00], by decide⟩ .standard 600 .clip
      (⟨#[], 0⟩ : Cycle)).replay [.step]).state.stack.toList ∧ 2 ≤ 0x202 ∧ 0x202 ≤ 4096 := by
  obtain ⟨-, -, -, hs, -⟩ :=
    replay_in_range ⟨[0x22, 0x00], by decide⟩ .standard 600 .clip (⟨#[], 0⟩ : Cycle) [.step]
  have ha : ⟨0x202, by decide⟩ ∈ ((powerOn ⟨[0x22, 0x00], by decide⟩ .standard 600 .clip
      (⟨#[], 0⟩ : Cycle)).replay [.step]).state.stack.toList := by decide +kernel
  exact ⟨ha, hs ⟨0x202, by decide⟩ ha⟩

end Machine

end Chip8
