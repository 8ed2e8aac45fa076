import Chip8.Proofs.Instruction.Component
import Chip8.Proofs.Instruction.Table
import Chip8.Proofs.Machine.Cycle

/-!
# Footprints

What a successful cycle may alter, read off the fields of its word and the operands before it.
`Word.StoresAt`, `Word.Writes`, `Word.Skips` and `Word.target` say it for memory, registers and
the program counter; `Machine.Footprint` collects all components. The main statement is
`Machine.step_footprint`.
-/

namespace Chip8

namespace Keypad

theorem first?_eq_none_iff {pad : Keypad} : pad.first? = none ↔ ∀ k, pad.isDown k = false := by
  simp [first?, List.find?_eq_none]

end Keypad

/-! ### What a word may touch -/

namespace Word

variable {ρ : Type}

/-- Only the decimal digits and the register block go to memory. -/
def StoresAt (s : State ρ) (w : Word) (a : Nat) : Prop :=
  (w.family = 0xF ∧ w.nn = 0x33 ∧ s.index.val ≤ a ∧ a ≤ s.index.val + 2) ∨
  (w.family = 0xF ∧ w.nn = 0x55 ∧ s.index.val ≤ a ∧ a ≤ s.index.val + w.x.val)

def Writes (s : State ρ) (w : Word) (r : Register) : Prop :=
  (w.family ∈ [0x6, 0x7, 0xC] ∧ r = w.x) ∨
  (w.family = 0x8 ∧ w.n ∈ [0x0, 0x1, 0x2, 0x3] ∧ r = w.x) ∨
  (w.family = 0x8 ∧ w.n ∈ [0x4, 0x5, 0x6, 0x7, 0xE] ∧ (r = w.x ∨ r = .flag)) ∨
  (w.family = 0xD ∧ r = .flag) ∨
  (w.family = 0xF ∧ w.nn = 0x07 ∧ r = w.x) ∨
  (w.family = 0xF ∧ w.nn = 0x0A ∧ (∃ k, s.keypad.isDown k = true) ∧ r = w.x) ∨
  (w.family = 0xF ∧ w.nn = 0x65 ∧ r.val ≤ w.x.val)

/-- The word is a test, and the test holds. -/
def Skips (s : State ρ) (w : Word) : Prop :=
  (w.family = 0x3 ∧ s.register w.x = w.nn) ∨
  (w.family = 0x4 ∧ s.register w.x ≠ w.nn) ∨
  (w.family = 0x5 ∧ s.register w.x = s.register w.y) ∨
  (w.family = 0x9 ∧ s.register w.x ≠ s.register w.y) ∨
  (w.family = 0xE ∧ w.nn = 0x9E ∧ s.isKeyDown (s.register w.x).toNat = true) ∨
  (w.family = 0xE ∧ w.nn = 0xA1 ∧ s.isKeyDown (s.register w.x).toNat = false)

instance (s : State ρ) (w : Word) : Decidable (w.Skips s) := inferInstanceAs (Decidable (_ ∨ _))

/-- The address that follows a word fetched at `p`; a return goes elsewhere. -/
def target (s : State ρ) (p : Nat) (w : Word) : Nat :=
  if w.family = 0x1 ∨ w.family = 0x2 then w.nnn.toNat
  else if w.family = 0xB then w.nnn.toNat + (s.register .first).toNat
  else if w.Skips s then p + 4
  else if w.family = 0xF ∧ w.nn = 0x0A ∧ ∀ k, s.keypad.isDown k = false then p
  else p + 2

end Word

theorem Word.target_congr {ρ : Type} {s t : State ρ} (hr : s.registers = t.registers)
    (hk : s.keypad = t.keypad) (p : Nat) (w : Word) : w.target s p = w.target t p := by
  cases s
  cases t
  cases hr
  cases hk
  rfl

/-! ### Stores to memory and registers -/

theorem Memory.mem_of_byteAt_patch_ne {size : Nat} {m : Memory size} {start a : Nat}
    {image : List Byte} (h : (m.patch start image).byteAt a ≠ m.byteAt a) :
    start ≤ a ∧ a < start + image.length := by
  rw [byteAt_patch] at h
  split at h
  · rename_i hc
    exact ⟨hc.1, hc.2.1⟩
  · exact absurd rfl h

namespace State

variable {ρ : Type} {s : State ρ} {x r : Register}

theorem eq_of_setRegister_ne {b : Byte} (h : (s.setRegister x b).register r ≠ s.register r) :
    r = x := by
  rw [register_setRegister] at h
  split at h
  · rename_i hx
    exact hx.symm
  · exact absurd rfl h

theorem lt_of_setRegisters_ne {bytes : List Byte}
    (h : (s.setRegisters bytes).register r ≠ s.register r) : r.val < bytes.length := by
  rw [register_setRegisters] at h
  rcases Nat.lt_or_ge r.val bytes.length with hr | hr
  · exact hr
  · rw [List.getElem?_eq_none hr] at h
    exact absurd rfl h

theorem of_withResult_ne {result : Byte × Option Bool}
    (h : { s with registers := s.withResult x result }.register r ≠ s.register r) :
    r = x ∨ (r = .flag ∧ result.2.isSome) := by
  obtain ⟨b, flag⟩ := result
  cases flag with
  | none => exact .inl (eq_of_setRegister_ne h)
  | some flag =>
    by_cases hf : r = .flag
    · exact .inr ⟨hf, rfl⟩
    · have hs : ((s.setRegister x b).setFlag flag).register r ≠ s.register r := h
      rw [register_setFlag, if_neg (Ne.symm hf)] at hs
      exact .inl (eq_of_setRegister_ne hs)

theorem of_withKey_ne (h : { s with registers := s.withKey x }.register r ≠ s.register r) :
    (∃ k, s.keypad.isDown k = true) ∧ r = x := by
  unfold withKey at h
  split at h
  · exact absurd rfl h
  · rename_i k hk
    exact ⟨⟨k, List.find?_some hk⟩, eq_of_setRegister_ne h⟩

end State

theorem Operation.Selects.flag {op : Operation} {n : BitVec 4} (h : op.Selects n)
    (set : InstructionSet) (a b : Byte) :
    (n ∈ [0x0, 0x1, 0x2, 0x3] ∧ (op.eval set a b).2 = none) ∨ n ∈ [0x4, 0x5, 0x6, 0x7, 0xE] := by
  cases h with
  | copy | or | and | xor => exact .inl ⟨by decide, rfl⟩
  | _ => exact .inr (by decide)

/-! ### One component at a time -/

namespace Word.StandsFor

open Instruction

variable {ρ : Type} [RandomSource ρ] {set : InstructionSet} {s : State ρ} {w : Word}
  {i : Instruction}

theorem storesAt (hw : w.StandsFor i) {a : Nat}
    (h : (i.effect set s).memory.byteAt a ≠ s.memory.byteAt a) : w.StoresAt s a := by
  rw [memory_effect] at h
  cases hw with
  | decimal hf hn =>
    have hm := Memory.mem_of_byteAt_patch_ne h
    rw [length_decimalDigits] at hm
    exact .inl ⟨hf, hn, hm.1, Nat.le_of_lt_succ hm.2⟩
  | store hf hn =>
    have hm := Memory.mem_of_byteAt_patch_ne h
    rw [length_take_registers] at hm
    exact .inr ⟨hf, hn, hm.1, Nat.le_of_lt_succ hm.2⟩
  | _ => exact absurd rfl h

theorem writes (hw : w.StandsFor i) {r : Register}
    (h : (i.effect set s).register r ≠ s.register r) : w.Writes s r := by
  rw [State.register, registers_effect] at h
  cases hw with
  | setConst hf | addConst hf | random hf =>
    have hr := State.eq_of_setRegister_ne h
    exact .inl ⟨by simp [hf], hr⟩
  | operate hf hn =>
    have hr := State.of_withResult_ne h
    -- an operation without a flag cannot have written the flag register unless it is the target
    rcases hn.flag set (s.register w.x) (s.register w.y) with ⟨hl, hnone⟩ | hl
    · rw [hnone] at hr
      rcases hr with hr | ⟨_, hsome⟩
      · exact .inr (.inl ⟨hf, hl, hr⟩)
      · cases hsome
    · exact .inr (.inr (.inl ⟨hf, hl, hr.imp_right And.left⟩))
  | draw hf =>
    have hr := State.eq_of_setRegister_ne h
    exact .inr (.inr (.inr (.inl ⟨hf, hr⟩)))
  | readDelay hf hn =>
    have hr := State.eq_of_setRegister_ne h
    exact .inr (.inr (.inr (.inr (.inl ⟨hf, hn, hr⟩))))
  | awaitKey hf hn =>
    obtain ⟨hk, hr⟩ := State.of_withKey_ne h
    exact .inr (.inr (.inr (.inr (.inr (.inl ⟨hf, hn, hk, hr⟩)))))
  | load hf hn =>
    have hr := State.lt_of_setRegisters_ne h
    have hl : (s.sprite (w.x.val + 1)).length = w.x.val + 1 := by
      simp [State.sprite, Memory.block]
    rw [hl] at hr
    exact .inr (.inr (.inr (.inr (.inr (.inr ⟨hf, hn, Nat.le_of_lt_succ hr⟩)))))
  | _ => exact absurd rfl h

theorem rows (hw : w.StandsFor i) (h : (i.effect set s).screen.rows ≠ s.screen.rows) :
    w = 0x00E0#16 ∨ w.family = 0xD := by
  rw [screen_effect] at h
  cases hw with
  | clear hc => exact .inl hc
  | draw hf => exact .inr hf
  | _ => exact absurd rfl h

theorem stack (hw : w.StandsFor i) (h : (i.effect set s).stack ≠ s.stack) :
    w = 0x00EE#16 ∨ w.family = 0x2 := by
  rw [stack_effect] at h
  cases hw with
  | ret hr => exact .inl hr
  | call hf => exact .inr hf
  | _ => exact absurd rfl h

theorem index (hw : w.StandsFor i) (h : (i.effect set s).index ≠ s.index) :
    w.family = 0xA ∨ (w.family = 0xF ∧ (w.nn = 0x1E ∨ w.nn = 0x29)) := by
  rw [index_effect] at h
  cases hw with
  | setIndex hf => exact .inl hf
  | addIndex hf hn => exact .inr ⟨hf, .inl hn⟩
  | glyph hf hn => exact .inr ⟨hf, .inr hn⟩
  | _ => exact absurd rfl h

theorem delayTimer (hw : w.StandsFor i) (h : (i.effect set s).delayTimer ≠ s.delayTimer) :
    w.family = 0xF ∧ w.nn = 0x15 := by
  rw [delayTimer_effect] at h
  cases hw with
  | setDelay hf hn => exact ⟨hf, hn⟩
  | _ => exact absurd rfl h

theorem soundTimer (hw : w.StandsFor i) (h : (i.effect set s).soundTimer ≠ s.soundTimer) :
    w.family = 0xF ∧ w.nn = 0x18 := by
  rw [soundTimer_effect] at h
  cases hw with
  | setSound hf hn => exact ⟨hf, hn⟩
  | _ => exact absurd rfl h

theorem random_source (hw : w.StandsFor i) (h : (i.effect set s).random ≠ s.random) :
    w.family = 0xC := by
  rw [random_effect] at h
  cases hw with
  | random hf => exact hf
  | _ => exact absurd rfl h

/-! ### The call stack and the program counter -/

theorem called (hw : w.StandsFor i) (h2 : w.family = 0x2) (hi : i.fault? s = none) :
    (i.effect set s).stack.toList = s.stack.toList ++ [s.pc] := by
  obtain rfl := hw.unique (.call h2)
  have hlt : s.stack.depth < stackSize := by
    by_cases h : s.stack.depth < stackSize
    · exact h
    · rw [Instruction.fault?, if_neg h] at hi
      cases hi
  rw [stack_effect]
  exact CallStack.toList_push (by rw [CallStack.push_eq, if_pos hlt])

theorem returned (hw : w.StandsFor i) (hE : w = 0x00EE#16) (hi : i.fault? s = none) :
    s.stack.toList = (i.effect set s).stack.toList ++ [(i.effect set s).pc] := by
  obtain rfl := hw.unique (.ret hE)
  have hne : ¬ s.stack.depth = 0 := by
    intro h
    rw [Instruction.fault?, if_pos h] at hi
    cases hi
  rw [stack_effect, pc_effect]
  exact CallStack.toList_pop (by rw [CallStack.pop_eq, if_neg hne])

omit [RandomSource ρ] in
theorem holds_iff {c : Condition} (hw : w.StandsFor (.skip c)) : c.holds s = true ↔ w.Skips s := by
  cases hw with
  | equalsConst hf | differsConst hf | equals hf | differs hf =>
    simp [Condition.holds, Skips, hf]
  | keyDown hf hn | keyUp hf hn => simp [Condition.holds, Skips, hf, hn]

omit [RandomSource ρ] in
theorem target_of_skip {c : Condition} (hw : w.StandsFor (.skip c)) (p : Nat) :
    w.target s p = if w.Skips s then p + 4 else p + 2 := by
  cases hw with
  | equalsConst hf | differsConst hf | equals hf | differs hf | keyDown hf _ | keyUp hf _ =>
    simp [target, hf]

theorem skip_target {c : Condition} (hw : w.StandsFor (.skip c)) {p : Nat}
    (hp : s.pc.val = p + 2) (hi : (skip c).fault? s = none) :
    ((skip c).effect set s).pc.val = w.target s p := by
  rw [pc_effect, target_of_skip hw]
  by_cases hc : c.holds s = true
  · rw [Instruction.fault?, if_pos hc] at hi
    have hm := Address.val_moved hi
    simp only [if_pos hc, if_pos (hw.holds_iff.1 hc)]
    omega
  · simp only [if_neg hc, if_neg (mt hw.holds_iff.2 hc)]
    exact hp

theorem awaitKey_target (hw : w.StandsFor (.awaitKey w.x)) {p : Nat} (hp : s.pc.val = p + 2)
    (hi : (Instruction.awaitKey w.x).fault? s = none) :
    ((Instruction.awaitKey w.x).effect set s).pc.val = w.target s p := by
  rw [pc_effect]
  cases hw with
  | awaitKey hf hn =>
    cases hk : s.keypad.first? with
    | none =>
      have hup := Keypad.first?_eq_none_iff.1 hk
      rw [Instruction.fault?, hk] at hi
      have hm := Address.val_moved hi
      have ht : w.target s p = p := by simp [target, Skips, hf, hn, hup]
      rw [ht]
      simp only [Option.isSome_none, Bool.false_eq_true, if_false]
      omega
    | some k =>
      have hdown : ¬ ∀ k, s.keypad.isDown k = false := by
        rw [← Keypad.first?_eq_none_iff, hk]
        exact Option.some_ne_none k
      have ht : w.target s p = p + 2 := by simp [target, Skips, hf, hn, if_neg hdown]
      rw [ht]
      exact hp

theorem target_eq (hw : w.StandsFor i) (hE : ¬ w = 0x00EE#16) {p : Nat} (hp : s.pc.val = p + 2)
    (hi : i.fault? s = none) : (i.effect set s).pc.val = w.target s p := by
  by_cases hs : ∃ c, i = skip c
  · obtain ⟨c, rfl⟩ := hs
    exact hw.skip_target hp hi
  have hpc := pc_effect set i s
  -- what remains are the jumps and the words that leave the program counter behind themselves
  cases hw with
  | ret h => exact absurd h hE
  | awaitKey hf hn => exact awaitKey_target (.awaitKey hf hn) hp hi
  | equalsConst | differsConst | equals | differs | keyDown | keyUp => exact absurd ⟨_, rfl⟩ hs
  | clear h =>
    have hf : w.family = 0x0 := by rw [h]; rfl
    simp [hpc, target, Skips, hf, hp]
  | jump hf | call hf => simp [hpc, target, hf, Address.ofBits]
  | jumpOffset hf =>
    have hm := Address.val_moved (overflow?_jumpOffset w.nnn (s.register .first))
    have hb : (Address.ofBits w.nnn).val = w.nnn.toNat := rfl
    have ht : w.target s p = w.nnn.toNat + (s.register .first).toNat := by simp [target, hf]
    simp only [hpc, ht]
    omega
  | readDelay hf hn | setDelay hf hn | setSound hf hn | addIndex hf hn | glyph hf hn
  | decimal hf hn | store hf hn | load hf hn => simp [hpc, target, Skips, hf, hn, hp]
  | _ hf => simp [hpc, target, Skips, hf, hp]

end Word.StandsFor

theorem Word.standsFor_of_fault?_eq_none {ρ : Type} [RandomSource ρ] {set : InstructionSet}
    (hset : set ≠ .idle) {s : State ρ} {w : Word} (h : w.fault? set s = none) :
    ∃ i, w.StandsFor i ∧ i.fault? s = none ∧ w.effect set s = i.effect set s := by
  unfold fault? at h
  unfold effect
  cases hd : Instruction.decode? w with
  | none =>
    rw [hd] at h
    cases h
  | some i =>
    simp only [hd, if_neg hset] at h ⊢
    exact ⟨i, Instruction.decode?_eq_some_iff.1 hd, h, rfl⟩

/-! ### The whole machine -/

namespace Machine

variable {ρ : Type}

/-- The machines `m'` that a cycle of `m` which executes `w` may leave. -/
structure Footprint (m : Machine ρ) (w : Word) (m' : Machine ρ) : Prop where
  setup : m' = { m with cycle := m.cycle + 1, state := m'.state }
  memory : ∀ a, m'.state.memory.byteAt a ≠ m.state.memory.byteAt a → w.StoresAt m.state a
  rows : m'.state.screen.rows ≠ m.state.screen.rows → w = 0x00E0#16 ∨ w.family = 0xD
  stack : m'.state.stack ≠ m.state.stack → w = 0x00EE#16 ∨ w.family = 0x2
  called : w.family = 0x2 → ∃ a : Address, a.val = m.state.pc.val + 2 ∧
    m'.state.stack.toList = m.state.stack.toList ++ [a]
  returned : w = 0x00EE#16 → m.state.stack.toList = m'.state.stack.toList ++ [m'.state.pc]
  index : m'.state.index ≠ m.state.index →
    w.family = 0xA ∨ (w.family = 0xF ∧ (w.nn = 0x1E ∨ w.nn = 0x29))
  delayTimer : m'.state.delayTimer ≠ m.ticked m.state.delayTimer → w.family = 0xF ∧ w.nn = 0x15
  soundTimer : m'.state.soundTimer ≠ m.ticked m.state.soundTimer → w.family = 0xF ∧ w.nn = 0x18
  registers : ∀ r, m'.state.register r ≠ m.state.register r → w.Writes m.state r
  pc : w ≠ 0x00EE#16 → m'.state.pc.val = w.target m.state m.state.pc.val
  keypad : m'.state.keypad = m.state.keypad
  random : m'.state.random ≠ m.state.random → w.family = 0xC

theorem storesAt_fetched (m : Machine ρ) (w : Word) (a : Nat) :
    w.StoresAt m.fetched a = w.StoresAt m.state a := rfl

theorem writes_fetched (m : Machine ρ) (w : Word) (r : Register) :
    w.Writes m.fetched r = w.Writes m.state r := rfl

theorem target_fetched (m : Machine ρ) (p : Nat) (w : Word) :
    w.target m.fetched p = w.target m.state p :=
  Word.target_congr m.registers_fetched m.keypad_fetched p w

variable [RandomSource ρ]

theorem step_footprint {m m' : Machine ρ} {w : Word} (hset : m.instructions ≠ .idle)
    (h : m.step = (.ok w, m')) : m.Footprint w m' := by
  have ho := m.step_outcome
  rw [h] at ho
  cases ho with
  | executed hlt hf =>
    have hp := pc_fetched hlt
    obtain ⟨i, hw, hi, he⟩ := Word.standsFor_of_fault?_eq_none hset hf
    rw [he]
    refine {
      setup := rfl
      memory := ?_
      rows := hw.rows
      stack := hw.stack
      called := fun h2 => ⟨m.fetched.pc, hp, hw.called h2 hi⟩
      returned := fun hE => hw.returned hE hi
      index := hw.index
      delayTimer := hw.delayTimer
      soundTimer := hw.soundTimer
      registers := ?_
      pc := ?_
      keypad := Instruction.keypad_effect m.instructions i m.fetched
      random := hw.random_source }
    · intro a ha
      rw [← storesAt_fetched]
      exact hw.storesAt ha
    · intro r hr
      rw [← writes_fetched]
      exact hw.writes hr
    · intro hE
      rw [← target_fetched]
      exact hw.target_eq hE hp hi

/-- A program that sets `V0` and the index and then stores `V0`. -/
theorem step_footprint_store :
    let m := (started ⟨[0x60, 0x7F, 0xA3, 0x00, 0xF0, 0x55], by decide⟩).step.2.step.2
    m.step = (.ok 0xF055#16, m.step.2) ∧ m.Footprint 0xF055#16 m.step.2 ∧
      m.state.memory.byteAt 0x300 = 0x00 ∧ m.step.2.state.memory.byteAt 0x300 = 0x7F := by
  intro m
  have hrun : m.instructions ≠ .idle ∧ m.step.1.toOption = some 0xF055#16 ∧
      m.state.memory.byteAt 0x300 = 0x00 ∧ m.step.2.state.memory.byteAt 0x300 = 0x7F := by
    decide +kernel
  obtain ⟨hset, hword, hbefore, hafter⟩ := hrun
  have hstep : m.step = (.ok 0xF055#16, m.step.2) := step_of_toOption hword
  exact ⟨hstep, step_footprint hset hstep, hbefore, hafter⟩

end Machine

end Chip8
