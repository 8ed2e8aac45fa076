import Chip8.Proofs.Machine.Histories

/-!
# Nested calls

What lies on the call stack stays there as long as the depth does not fall below it. So whatever is
executed behind a call, and whatever fails, the first cycle that comes back to the depth of the call
is the return that belongs to it. The main statement is `Machine.calls_nest`.
-/

namespace Chip8

namespace Machine

variable {ρ : Type} [RandomSource ρ] {m : Machine ρ}

/-! ### One command -/

/-- What a cycle does to the call stack. -/
inductive StackMove (m : Machine ρ) : Except Report Word × Machine ρ → Prop
  | keeps {outcome : Except Report Word} {m' : Machine ρ}
    (h : m'.state.stack.toList = m.state.stack.toList) : StackMove m (outcome, m')
  | calls {outcome : Except Report Word} {m' : Machine ρ} {a : Address}
    (h : m'.state.stack.toList = m.state.stack.toList ++ [a]) : StackMove m (outcome, m')
  | returns {m' : Machine ρ}
    (h : m.state.stack.toList = m'.state.stack.toList ++ [m'.state.pc]) :
    StackMove m (.ok 0x00EE#16, m')

theorem stack_step (hset : m.instructions ≠ .idle) : m.StackMove m.step := by
  have ho := m.step_outcome
  generalize m.step = result at ho ⊢
  cases ho with
  | unfetched | faulted => exact .keeps rfl
  | executed hp hf =>
    obtain ⟨i, hw, hi, he⟩ := Word.standsFor_of_fault?_eq_none hset hf
    rw [he]
    by_cases hE : m.nextWord = 0x00EE#16
    · rw [hE]
      exact .returns (hw.returned hE hi)
    · by_cases h2 : m.nextWord.family = 0x2
      · exact .calls (hw.called h2 hi)
      · refine .keeps (congrArg CallStack.toList (Classical.byContradiction fun hs => ?_))
        rcases hw.stack hs with hc | hc
        · exact hE hc
        · exact h2 hc

theorem prefix_step (hset : m.instructions ≠ .idle) {below : List Address}
    (h : below <+: m.state.stack.toList) (hd : below.length ≤ m.step.2.state.stack.depth) :
    below <+: m.step.2.state.stack.toList := by
  have hm := stack_step hset
  generalize m.step = result at hm hd ⊢
  cases hm with
  | keeps hs =>
    rw [hs]
    exact h
  | calls hs =>
    rw [hs]
    exact h.trans (List.prefix_append _ _)
  | returns hs =>
    -- two beginnings of the same stack: what lies below, and what the return leaves
    rw [hs] at h
    rw [← CallStack.length_toList] at hd
    exact List.prefix_of_prefix_length_le h (List.prefix_append _ _) hd

theorem prefix_perform (hset : m.instructions ≠ .idle) {below : List Address}
    (h : below <+: m.state.stack.toList) {command : Command} (hr : command ≠ .reset)
    (hd : below.length ≤ (m.perform command).state.stack.depth) :
    below <+: (m.perform command).state.stack.toList := by
  have hp := m.performed command
  generalize m.perform command = m' at hp hd ⊢
  cases hp with
  | step => exact prefix_step hset h hd
  | press | release => exact h
  | reset => exact absurd rfl hr

/-- Only a return can uncover what lies below the newest return address. -/
theorem return_of_step (hset : m.instructions ≠ .idle) {below : List Address} {a : Address}
    (h : below ++ [a] <+: m.state.stack.toList)
    (hd : m.step.2.state.stack.depth ≤ below.length) :
    m.step.1 = .ok 0x00EE#16 ∧ m.step.2.state.pc = a ∧ m.step.2.state.stack.toList = below := by
  have hm := stack_step hset
  have hle := h.length_le
  rw [List.length_append, List.length_singleton] at hle
  rw [← CallStack.length_toList] at hd
  generalize m.step = result at hm hd ⊢
  cases hm with
  | keeps hs =>
    simp only [hs] at hd
    omega
  | calls hs =>
    simp only [hs, List.length_append] at hd
    omega
  | @returns m' hs =>
    rw [hs] at h
    -- a stack of more than `below ++ [a]` would still be too high after the return
    rcases List.prefix_concat_iff.1 h with heq | hpre
    · obtain ⟨hb, ha⟩ := List.append_inj' heq rfl
      exact ⟨rfl, (List.singleton_inj.1 ha).symm, hb.symm⟩
    · have hlen := hpre.length_le
      rw [List.length_append, List.length_singleton] at hlen
      exact absurd hlen (Nat.not_lt.2 hd)

theorem return_of_perform (hset : m.instructions ≠ .idle) {below : List Address} {a : Address}
    (h : below ++ [a] <+: m.state.stack.toList) {command : Command} (hr : command ≠ .reset)
    (hd : (m.perform command).state.stack.depth ≤ below.length) :
    command = .step ∧ m.step.1 = .ok 0x00EE#16 ∧ (m.perform command).state.pc = a ∧
      (m.perform command).state.stack.toList = below := by
  have hle := h.length_le
  simp only [List.length_append, List.length_singleton, CallStack.length_toList] at hle
  have hp := m.performed command
  generalize m.perform command = m' at hp hd ⊢
  cases hp with
  | step => exact ⟨rfl, return_of_step hset h hd⟩
  | press | release => exact absurd hle (Nat.not_lt.2 hd)
  | reset => exact absurd rfl hr

/-! ### Histories -/

theorem prefix_replay (hset : m.instructions ≠ .idle) {below : List Address}
    (h : below <+: m.state.stack.toList) {history : List Command} (hr : .reset ∉ history)
    (hd : ∀ n ≤ history.length,
      below.length ≤ (m.replay (history.take n)).state.stack.depth) :
    below <+: (m.replay history).state.stack.toList := by
  induction history generalizing m with
  | nil => exact h
  | cons command rest ih =>
    have hc : command ≠ .reset := fun he => hr (he ▸ List.mem_cons_self)
    have hrest : .reset ∉ rest := fun hm => hr (List.mem_cons_of_mem command hm)
    have hset' : (m.perform command).instructions ≠ .idle := by rwa [instructions_perform]
    have hone : below.length ≤ (m.perform command).state.stack.depth :=
      hd 1 (Nat.le_add_left 1 rest.length)
    exact ih hset' (prefix_perform hset h hc hone) hrest fun n hn => hd (n + 1) (Nat.succ_le_succ hn)

theorem step_of_call (hset : m.instructions ≠ .idle) (hpc : m.state.pc.val + 1 < memorySize)
    (hcall : m.nextWord.family = 0x2) (hdepth : m.state.stack.depth < stackSize) :
    ∃ a called, m.step = (.ok m.nextWord, called) ∧ a.val = m.state.pc.val + 2 ∧
      called.instructions = m.instructions ∧
      called.state.stack.toList = m.state.stack.toList ++ [a] := by
  have ho := m.step_outcome
  have hw := Word.StandsFor.call hcall
  have hi : (Instruction.call m.nextWord.nnn).fault? m.fetched = none := by
    rw [Instruction.fault?, stack_fetched, if_pos hdepth]
  have hf : m.nextWord.fault? m.instructions m.fetched = none := by
    simp only [Word.fault?, Instruction.decode?_eq_some_iff.2 hw, if_neg hset, hi]
  generalize m.step = result at ho
  cases ho with
  | unfetched hle => exact absurd hpc (Nat.not_lt.2 hle)
  | faulted _ hfault =>
    rw [hf] at hfault
    cases hfault
  | executed =>
    obtain ⟨i, hw', hi', he⟩ := Word.standsFor_of_fault?_eq_none hset hf
    refine ⟨m.fetched.pc, _, rfl, pc_fetched hpc, rfl, ?_⟩
    rw [he]
    exact hw'.called hcall hi'

/-- Behind a call at an address, as long as the depth stays above that of the call, the stack holds what
it held before and above it the address behind the call. The first command, other than a reset, that
brings the depth back is a cycle that executes a return; it leads behind the call with the stack of
before. -/
theorem calls_nest (hset : m.instructions ≠ .idle) (hpc : m.state.pc.val + 1 < memorySize)
    (hcall : m.nextWord.family = 0x2) (hdepth : m.state.stack.depth < stackSize) :
    ∃ a called, m.step = (.ok m.nextWord, called) ∧ a.val = m.state.pc.val + 2 ∧
      ∀ body : List Command, .reset ∉ body →
        (∀ n ≤ body.length,
          m.state.stack.depth < (called.replay (body.take n)).state.stack.depth) →
        m.state.stack.toList ++ [a] <+: (called.replay body).state.stack.toList ∧
        ∀ command, command ≠ .reset →
          ((called.replay body).perform command).state.stack.depth ≤ m.state.stack.depth →
          command = .step ∧ (called.replay body).step.1 = .ok 0x00EE#16 ∧
          ((called.replay body).perform command).state.pc = a ∧
          ((called.replay body).perform command).state.stack.toList = m.state.stack.toList := by
  obtain ⟨a, called, hstep, ha, hset', hstack⟩ := step_of_call hset hpc hcall hdepth
  refine ⟨a, called, hstep, ha, fun body hr habove => ?_⟩
  have hlen : (m.state.stack.toList ++ [a]).length = m.state.stack.depth + 1 := by
    rw [List.length_append, CallStack.length_toList, List.length_singleton]
  have hcalled : called.instructions ≠ .idle := by rwa [hset']
  have hstart : m.state.stack.toList ++ [a] <+: called.state.stack.toList :=
    ⟨[], by rw [hstack, List.append_nil]⟩
  have hbelow : m.state.stack.toList ++ [a] <+: (called.replay body).state.stack.toList := by
    apply prefix_replay hcalled hstart hr
    intro n hn
    rw [hlen]
    exact habove n hn
  refine ⟨hbelow, fun command hc hback => ?_⟩
  have hbody : (called.replay body).instructions ≠ .idle := by rwa [instructions_replay]
  rw [← CallStack.length_toList m.state.stack] at hback
  exact return_of_perform hbody hbelow hc hback

/-- A call whose body holds an unknown word, a call of its own and a key that does not exist. -/
theorem calls_nest_inner :
    let m := started ⟨[0x22, 0x04, 0x12, 0x02, 0x00, 0x00, 0x22, 0x0A, 0x00, 0xEE, 0x00, 0xEE],
      by decide⟩
    let body : List Command := [.step, .step, .press 99, .step]
    m.instructions ≠ .idle ∧ m.state.pc.val + 1 < memorySize ∧ m.nextWord.family = 0x2 ∧
      m.state.stack.depth < stackSize ∧ ∃ a called, m.step = (.ok m.nextWord, called) ∧
        a.val = m.state.pc.val + 2 ∧ .reset ∉ body ∧
        (∀ n ≤ body.length,
          m.state.stack.depth < (called.replay (body.take n)).state.stack.depth) ∧
        ((called.replay body).perform .step).state.stack.depth ≤ m.state.stack.depth ∧
        (called.replay body).step.1 = .ok 0x00EE#16 ∧
        ((called.replay body).perform .step).state.pc = a := by
  intro m body
  have hset : m.instructions ≠ .idle := by decide
  have hpc : m.state.pc.val + 1 < memorySize := by decide
  have hcall : m.nextWord.family = 0x2 := by decide +kernel
  have hdepth : m.state.stack.depth < stackSize := by decide
  obtain ⟨a, called, hstep, ha, hnest⟩ := calls_nest hset hpc hcall hdepth
  have hcalled : called = m.step.2 := by rw [hstep]
  have hr : .reset ∉ body := by decide
  have habove : ∀ n ≤ body.length,
      m.state.stack.depth < (called.replay (body.take n)).state.stack.depth := by
    rw [hcalled]
    decide +kernel
  have hback : ((called.replay body).perform .step).state.stack.depth ≤ m.state.stack.depth := by
    rw [hcalled]
    decide +kernel
  obtain ⟨-, hret, hto, -⟩ := (hnest body hr habove).2 .step (by decide) hback
  exact ⟨hset, hpc, hcall, hdepth, a, called, hstep, ha, hr, habove, hback, hret, hto⟩

end Machine

end Chip8
