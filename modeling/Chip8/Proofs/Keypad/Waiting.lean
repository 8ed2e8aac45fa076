import Chip8.Proofs.Keypad.Sampling

/-!
# Waiting for a key

The word FX0A rewinds the program counter behind its own fetch as long as no key is down, so waiting
repeats one cycle that alters nothing but the count, the timers and the changed flag. The first cycle that
finds keys down takes the lowest of them and goes on as if the machine had not waited. The main statement is
`waiting_stutters`.
-/

namespace Chip8

/-! ### Keys -/

namespace Keypad

theorem first?_least {pad : Keypad} {k : Key} (h : pad.first? = some k) :
    pad.isDown k = true ∧ ∀ j, pad.isDown j = true → k ≤ j := by
  obtain ⟨hk, i, hi, hki, hbefore⟩ := List.find?_eq_some_iff_getElem.1 h
  refine ⟨hk, fun j hj => ?_⟩
  rw [List.getElem_finRange] at hki
  have hval : i = k.val := congrArg Fin.val hki
  by_contra hle
  have hlt : j.val < i := hval ▸ Nat.lt_of_not_le hle
  have hup := hbefore j.val hlt
  rw [List.getElem_finRange] at hup
  exact absurd hj (by simpa using hup)

end Keypad

namespace Machine

variable {ρ : Type} [RandomSource ρ] {m : Machine ρ}

/-- Presses and releases alter the keypad alone. -/
theorem replay_keys (m : Machine ρ) {history : List Command} (hstep : .step ∉ history)
    (hreset : .reset ∉ history) :
    m.replay history = m.holding (history.foldl Keypad.perform m.state.keypad) := by
  induction history generalizing m with
  | nil => rfl
  | cons command rest ih =>
    simp only [List.mem_cons, not_or] at hstep hreset
    have hfirst := m.perform_holding (Ne.symm hstep.1) (Ne.symm hreset.1)
    have hrest := ih (m.perform command) hstep.2 hreset.2
    rw [hfirst] at hrest
    have hreplay : m.replay (command :: rest) = (m.perform command).replay rest := rfl
    rw [hreplay, hfirst, hrest]
    rfl

/-! ### One cycle -/

/-- The next word is FX0A. -/
structure AwaitsKey (m : Machine ρ) : Prop where
  fetchable : m.state.pc.val + 1 < memorySize
  family : m.nextWord.family = 0xF
  low : m.nextWord.nn = 0x0A

omit [RandomSource ρ] in
theorem AwaitsKey.holding (h : m.AwaitsKey) (pad : Keypad) : (m.holding pad).AwaitsKey :=
  ⟨h.fetchable, h.family, h.low⟩

theorem AwaitsKey.step (h : m.AwaitsKey) (hset : m.instructions ≠ .idle) :
    m.step = (.ok m.nextWord,
      m.after ((Instruction.awaitKey m.nextWord.x).effect m.instructions m.fetched)) := by
  have hd : Instruction.decode? m.nextWord = some (.awaitKey m.nextWord.x) :=
    Instruction.decode?_eq_some_iff.2 (.awaitKey h.family h.low)
  have hpc := pc_fetched h.fetchable
  have hwait : Address.overflow? (m.fetched.pc.val + -2) = none := Address.overflow?_wait (by omega)
  have hfault : m.nextWord.fault? m.instructions m.fetched = none := by
    simp only [Word.fault?, hd, Instruction.fault?, hwait, ite_self]
  rw [step_of_no_fault h.fetchable hfault]
  simp only [Word.effect, hd, if_neg hset]

/-- The rewind leads back to where the fetch began, wherever that is. -/
theorem AwaitsKey.step_of_up (h : m.AwaitsKey) (hset : m.instructions ≠ .idle)
    (hup : m.state.keypad.first? = none) : m.step = (.ok m.nextWord, m.after m.prepared) := by
  have hpc := pc_fetched h.fetchable
  have hback : m.fetched.pc.moved (-2) = m.state.pc := by
    have hwait : Address.overflow? (m.fetched.pc.val + -2) = none :=
      Address.overflow?_wait (by omega)
    have hmoved := Address.val_moved hwait
    apply Address.ext
    omega
  rw [h.step hset]
  simp only [Instruction.effect, State.withKey, keypad_fetched, hup, Option.isSome_none,
    Bool.false_eq_true, if_false, hback]
  rfl

theorem AwaitsKey.step_of_down (h : m.AwaitsKey) (hset : m.instructions ≠ .idle) {k : Key}
    (hk : m.state.keypad.first? = some k) :
    m.step = (.ok m.nextWord,
      m.after (m.fetched.setRegister m.nextWord.x (BitVec.ofNat 8 k.val))) := by
  rw [h.step hset]
  simp only [Instruction.effect, State.withKey, keypad_fetched, hk, Option.isSome_some, if_true]
  rfl

/-! ### Any number of cycles -/

/-- The next word is FX0A, and no key is down. -/
structure Waits (m : Machine ρ) : Prop where
  awaits : m.AwaitsKey
  up : m.state.keypad.first? = none

theorem waits_cycles (hset : m.instructions ≠ .idle) (h : m.Waits) (n : Nat) : (m.cycles n).Waits := by
  induction n with
  | zero => exact h
  | succ n ih =>
    rw [cycles, ih.awaits.step_of_up (instructions_cycles_ne hset n) ih.up]
    exact ⟨⟨ih.awaits.fetchable, ih.awaits.family, ih.awaits.low⟩, ih.up⟩

theorem step_cycles_of_waits (hset : m.instructions ≠ .idle) (h : m.Waits) (n : Nat) :
    (m.cycles n).step = (.ok (m.cycles n).nextWord, (m.cycles n).after (m.cycles n).prepared) :=
  (waits_cycles hset h n).awaits.step_of_up (instructions_cycles_ne hset n) (waits_cycles hset h n).up

theorem changed_cycles_of_waits (hset : m.instructions ≠ .idle) (h : m.Waits) (n : Nat) :
    (m.cycles n).state.screen.changed = if n = 0 then m.state.screen.changed else false := by
  cases n with
  | zero => rfl
  | succ n =>
    rw [cycles, step_cycles_of_waits hset h n]
    rfl

theorem cycles_of_waits (hb : m.state.Bounded) (hset : m.instructions ≠ .idle) (h : m.Waits) (n : Nat) :
    m.cycles n = { m with
      cycle := m.cycle + n
      state := { m.state with
        delayTimer := max (m.state.delayTimer - ticks (period m.frequency) m.cycle (m.cycle + n)) 0
        soundTimer := max (m.state.soundTimer - ticks (period m.frequency) m.cycle (m.cycle + n)) 0
        screen := { m.state.screen with
          changed := if n = 0 then m.state.screen.changed else false } } } := by
  have hstate := state_cycles_of_prepared hb (n := n) fun i _ =>
    congrArg Prod.snd (step_cycles_of_waits hset h i)
  rw [changed_cycles_of_waits hset h n] at hstate
  obtain ⟨s, hs⟩ := m.cycles_setup n
  rw [hs] at hstate ⊢
  rw [← hstate]

theorem call_of_waits (hb : m.state.Bounded) (hset : m.instructions ≠ .idle) (h : m.Waits) (n : Nat) :
    m.call n = .ok m.nextWord := by
  have hword : (m.cycles n).nextWord = m.nextWord := by
    rw [cycles_of_waits hb hset h n]
    rfl
  rw [call, step_cycles_of_waits hset h n, hword]

theorem step_holding_of_waits (hb : m.state.Bounded) (hset : m.instructions ≠ .idle) (h : m.Waits)
    (n : Nat) {pad : Keypad} {k : Key} (hk : pad.first? = some k) :
    let ready := (m.cycles n).holding pad
    let unwaited := (m.holding pad).step.2
    ready.step.1 = .ok m.nextWord ∧
    (ready.step.2.state.register m.nextWord.x).toNat = k.val ∧
    ready.step.2.state.pc.val = m.state.pc.val + 2 ∧
    ∃ delay sound, ready.step.2 = { unwaited with
      cycle := m.cycle + n + 1
      state := { unwaited.state with delayTimer := delay, soundTimer := sound } } := by
  intro ready unwaited
  have hready := ((waits_cycles hset h n).awaits.holding pad).step_of_down
    (instructions_cycles_ne hset n) hk
  have hunwaited := (h.awaits.holding pad).step_of_down hset hk
  have hpc := pc_fetched h.awaits.fetchable
  simp only [ready, unwaited, hready, hunwaited]
  rw [cycles_of_waits hb hset h n]
  refine ⟨rfl, ?_, hpc, _, _, rfl⟩
  show ((State.setRegister _ m.nextWord.x (BitVec.ofNat 8 k.val)).register m.nextWord.x).toNat = k.val
  rw [State.register_setRegister, if_pos rfl, BitVec.toNat_ofNat]
  omega

/-! ### The main statement -/

/-- As long as FX0A finds no key down, each cycle returns it and leaves everything but the count, the timers
and the changed flag. Once keys are held down, the next cycle takes the lowest of them and leaves what it
would have left without the wait, but for the count and the timers. -/
theorem waiting_stutters (hreach : Reachable m) (hset : m.instructions ≠ .idle)
    (hup : ∀ k, m.state.keypad.isDown k = false) (hpc : m.state.pc.val ≤ 4094)
    (hword : m.nextWord.family = 0xF ∧ m.nextWord.nn = 0x0A) (n : Nat) :
    (∀ i < n, m.call i = .ok m.nextWord) ∧
    m.cycles n = { m with
      cycle := m.cycle + n
      state := { m.state with
        delayTimer := max (m.state.delayTimer - ticks (period m.frequency) m.cycle (m.cycle + n)) 0
        soundTimer := max (m.state.soundTimer - ticks (period m.frequency) m.cycle (m.cycle + n)) 0
        screen := { m.state.screen with
          changed := if n = 0 then m.state.screen.changed else false } } } ∧
    ∀ keys : List Command, .step ∉ keys → .reset ∉ keys →
      let ready := (m.cycles n).replay keys
      let unwaited := (m.replay keys).step.2
      (∃ k, ready.state.keypad.isDown k = true) →
      ∃ k, ready.state.keypad.isDown k = true ∧
        (∀ j, ready.state.keypad.isDown j = true → k ≤ j) ∧
        ready.step.1 = .ok m.nextWord ∧
        (ready.step.2.state.register m.nextWord.x).toNat = k.val ∧
        ready.step.2.state.pc.val = m.state.pc.val + 2 ∧
        ∃ delay sound, ready.step.2 = { unwaited with
          cycle := m.cycle + n + 1
          state := { unwaited.state with delayTimer := delay, soundTimer := sound } } := by
  have hp : m.state.pc.val + 1 < memorySize := by
    simp only [memorySize]
    omega
  have hb := hreach.bounded
  have hwaits : m.Waits := ⟨⟨hp, hword.1, hword.2⟩, Keypad.first?_eq_none_iff.2 hup⟩
  refine ⟨fun i _ => call_of_waits hb hset hwaits i, cycles_of_waits hb hset hwaits n, ?_⟩
  intro keys hstep hreset
  have hready := (m.cycles n).replay_keys hstep hreset
  have hkeypad : (m.cycles n).state.keypad = m.state.keypad := by
    rw [cycles_of_waits hb hset hwaits n]
  rw [hkeypad] at hready
  rw [hready, m.replay_keys hstep hreset]
  generalize keys.foldl Keypad.perform m.state.keypad = pad
  intro ready unwaited hdown
  cases hk : pad.first? with
  | none =>
    obtain ⟨k, hdown⟩ := hdown
    have hkup := Keypad.first?_eq_none_iff.1 hk k
    exact absurd (hkup.symm.trans hdown) Bool.false_ne_true
  | some k =>
    obtain ⟨hkdown, hleast⟩ := Keypad.first?_least hk
    exact ⟨k, hkdown, hleast, step_holding_of_waits hb hset hwaits n hk⟩

/-- Three cycles of waiting, then key 5 while key 9 is let go of and key 20 does not exist. -/
theorem waiting_stutters_key :
    let m := started ⟨[0xF3, 0x0A], by decide⟩
    Reachable m ∧ (∀ k, m.state.keypad.isDown k = false) ∧ m.state.pc.val ≤ 4094 ∧
    (m.nextWord.family = 0xF ∧ m.nextWord.nn = 0x0A) ∧
    (∀ i < 3, m.call i = .ok m.nextWord) ∧
    let ready := (m.cycles 3).replay [.press 9, .press 5, .release 9, .press 20]
    ready.step.1 = .ok m.nextWord ∧ (ready.step.2.state.register 3).toNat = 5 ∧
      ready.step.2.state.pc.val = 0x202 := by
  intro m
  have hreach : Reachable m := .powerOn _ _ _ _ _
  have hup : ∀ k, m.state.keypad.isDown k = false := by decide
  have hw : m.nextWord = 0xF30A#16 := by decide +kernel
  have hword : m.nextWord.family = 0xF ∧ m.nextWord.nn = 0x0A := by
    rw [hw]
    decide
  obtain ⟨hcalls, hcycles, hready⟩ := waiting_stutters hreach (by decide) hup (by decide) hword 3
  have hdown : ∀ k, ((m.cycles 3).replay
      [.press 9, .press 5, .release 9, .press 20]).state.keypad.isDown k = true ↔ k = 5 := by
    rw [hcycles]
    decide +kernel
  obtain ⟨k, hk, -, hcall, hregister, hpc, -⟩ := hready
    [.press 9, .press 5, .release 9, .press 20] (by decide) (by decide) ⟨5, (hdown 5).2 rfl⟩
  have hx : m.nextWord.x = 3 := by
    rw [hw]
    decide
  rw [hx, (hdown k).1 hk] at hregister
  exact ⟨hreach, hup, by decide, hword, hcalls, hcall, hregister, hpc⟩

end Machine

end Chip8
