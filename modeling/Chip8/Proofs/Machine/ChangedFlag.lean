import Chip8.Proofs.Machine.Histories

/-!
# The changed flag

A cycle leaves the screen marked as changed just when it has executed a word that clears or draws, whatever
the flag was before. So a host that copies the rows whenever it finds the flag set always holds the rows of
the machine. The main statement is `Machine.changed_tracks_redraws`.
-/

namespace Chip8

theorem Screen.changed_flipSprite (s : Screen) (x y : Int) (patterns : List Byte) :
    (s.flipSprite x y patterns).changed = (s.changed || !patterns.isEmpty) := by
  induction patterns generalizing s y with
  | nil => simp [flipSprite]
  | cons p rest ih =>
    have hflip : (s.flipPattern p x y).changed = true := rfl
    rw [flipSprite, ih, hflip]
    simp

namespace Instruction

variable {ρ : Type} [RandomSource ρ]

/-- An instruction that leaves the flag down leaves the rows. -/
theorem changed_or_rows_effect (set : InstructionSet) (i : Instruction) (s : State ρ) :
    (i.effect set s).screen.changed = true ∨ (i.effect set s).screen.rows = s.screen.rows := by
  rw [screen_effect]
  cases i with
  | clear => exact .inl rfl
  | draw x y height =>
    simp only [Screen.changed_flipSprite]
    cases s.sprite height.toNat with
    | nil => exact .inr rfl
    | cons p rest => simp
  | _ => exact .inr rfl

end Instruction

namespace Word

variable {ρ : Type} [RandomSource ρ] {set : InstructionSet} {s : State ρ} {w : Word} {i : Instruction}

/-- The words that clear the screen, or draw a sprite of at least one line. -/
def Redraws (w : Word) : Prop := w = 0x00E0#16 ∨ w.family = 0xD ∧ 1 ≤ w.n.toNat

theorem StandsFor.screen_effect_eq (hw : w.StandsFor i) (h0 : w ≠ 0x00E0#16) (hD : w.family ≠ 0xD) :
    (i.effect set s).screen = s.screen := by
  rw [Instruction.screen_effect]
  cases hw with
  | clear h => exact absurd h h0
  | draw h => exact absurd h hD
  | _ => rfl

theorem StandsFor.changed_effect_iff (hw : w.StandsFor i) (hs : s.screen.changed = false) :
    (i.effect set s).screen.changed = true ↔ w.Redraws := by
  by_cases h0 : w = 0x00E0#16
  · obtain rfl := hw.unique (.clear h0)
    exact iff_of_true rfl (.inl h0)
  · by_cases hD : w.family = 0xD
    · obtain rfl := hw.unique (.draw hD)
      have hlength : (s.sprite w.n.toNat).length = w.n.toNat := by simp [State.sprite, Memory.block]
      rw [Instruction.screen_effect]
      simp only [Screen.changed_flipSprite, hs, Redraws, h0, hD, Bool.false_or, false_or, true_and,
        Bool.not_eq_true', List.isEmpty_eq_false_iff, ← List.length_pos_iff, hlength]
      exact Nat.succ_le_iff.symm
    · rw [hw.screen_effect_eq h0 hD, hs]
      exact iff_of_false Bool.false_ne_true fun h => h.elim h0 fun hd => hD hd.1

theorem changed_or_rows_effect (set : InstructionSet) (w : Word) (s : State ρ) :
    (w.effect set s).screen.changed = true ∨ (w.effect set s).screen.rows = s.screen.rows := by
  unfold effect
  cases Instruction.decode? w with
  | none => exact .inr rfl
  | some i =>
    by_cases hset : set = .idle
    · exact .inr (by simp only [if_pos hset])
    · simp only [if_neg hset]
      exact i.changed_or_rows_effect set s

end Word

namespace Machine

variable {ρ : Type} [RandomSource ρ]

/-! ### One command -/

theorem changed_step_iff {m : Machine ρ} (hset : m.instructions ≠ .idle) :
    m.step.2.state.screen.changed = true ↔ ∃ w, m.step.1 = .ok w ∧ w.Redraws := by
  have ho := m.step_outcome
  generalize m.step = result at ho ⊢
  cases ho with
  | unfetched => simp [after, prepared, Screen.settle]
  | faulted => simp [after, Screen.settle]
  | executed h hf =>
    obtain ⟨i, hw, -, he⟩ := Word.standsFor_of_fault?_eq_none hset hf
    have hchanged : (i.effect m.instructions m.fetched).screen.changed = true ↔ m.nextWord.Redraws :=
      hw.changed_effect_iff rfl
    rw [← he] at hchanged
    simpa [after] using hchanged

theorem rows_step {m : Machine ρ} (h : m.step.2.state.screen.changed = false) :
    m.step.2.state.screen.rows = m.state.screen.rows := by
  have ho := m.step_outcome
  generalize m.step = result at ho h ⊢
  cases ho with
  | unfetched => rfl
  | faulted => rfl
  | executed =>
    have hrows := m.nextWord.changed_or_rows_effect m.instructions m.fetched
    exact hrows.resolve_left (Bool.eq_false_iff.1 h)

/-! ### A host that watches the flag -/

/-- What a host holds of the rows behind one more command: it copies them if the command is a cycle that
has left the flag set. -/
def recopied (copy : Vector Row 32) (m : Machine ρ) : Command → Vector Row 32
  | .step => if m.step.2.state.screen.changed then m.step.2.state.screen.rows else copy
  | .press _ => copy
  | .release _ => copy
  | .reset => copy

def watched (copy : Vector Row 32) (m : Machine ρ) : List Command → Vector Row 32
  | [] => copy
  | command :: rest => watched (m.recopied copy command) (m.perform command) rest

theorem recopied_eq (m : Machine ρ) {command : Command} (h : .reset ≠ command) :
    m.recopied m.state.screen.rows command = (m.perform command).state.screen.rows := by
  have hp := m.performed command
  generalize m.perform command = m' at hp ⊢
  cases hp with
  | step =>
    by_cases hc : m.step.2.state.screen.changed = true
    · rw [recopied, if_pos hc]
    · rw [recopied, if_neg hc, rows_step (Bool.eq_false_iff.2 hc)]
  | press => rfl
  | release => rfl
  | reset => exact absurd rfl h

/-- As long as there is no reset, what a host holds are the rows of the machine. -/
theorem watched_eq (m : Machine ρ) {history : List Command} (h : .reset ∉ history) :
    m.watched m.state.screen.rows history = (m.replay history).state.screen.rows := by
  induction history generalizing m with
  | nil => rfl
  | cons command rest ih =>
    rw [List.mem_cons, not_or] at h
    rw [watched, m.recopied_eq h.1]
    exact ih (m.perform command) h.2

/-! ### The main statement -/

/-- After a cycle the flag is set just when the cycle has executed 00E0 or DXYN with at least one line, and
a host that copies the rows after each such cycle is never behind. -/
theorem changed_tracks_redraws (m : Machine ρ) :
    (m.instructions ≠ .idle → (m.step.2.state.screen.changed = true ↔
      ∃ w, m.step.1 = .ok w ∧ (w = 0x00E0#16 ∨ w.family = 0xD ∧ 1 ≤ w.n.toNat))) ∧
    ∀ history : List Command, .reset ∉ history →
      m.watched m.state.screen.rows history = (m.replay history).state.screen.rows :=
  ⟨changed_step_iff, fun _ => m.watched_eq⟩

/-- The glyph of the digit 0 is drawn in the corner, then a sprite without lines; the last word is unknown. -/
theorem changed_tracks_redraws_glyph :
    let m := started ⟨[0xF0, 0x29, 0xD0, 0x05, 0xD0, 0x00, 0x01, 0x23], by decide⟩
    let history : List Command := [.step, .press 3, .step, .step, .press 20, .step]
    (m.perform .step).instructions ≠ .idle ∧ (m.perform .step).step.1 = .ok 0xD005#16 ∧
    (m.perform .step).step.2.state.screen.changed = true ∧
    .reset ∉ history ∧
      m.watched m.state.screen.rows history = (m.replay history).state.screen.rows := by
  intro m history
  have hset : (m.perform .step).instructions ≠ .idle := by
    rw [instructions_perform]
    decide
  have hdrawn : (m.perform .step).step = (.ok 0xD005#16, (m.perform .step).step.2) :=
    step_of_toOption (by decide +kernel)
  have hreset : .reset ∉ history := by decide
  obtain ⟨hflag, -⟩ := changed_tracks_redraws (m.perform .step)
  have hcall := congrArg Prod.fst hdrawn
  exact ⟨hset, hcall, (hflag hset).2 ⟨_, hcall, .inr (by decide)⟩, hreset,
    (changed_tracks_redraws m).2 history hreset⟩

end Machine

end Chip8
