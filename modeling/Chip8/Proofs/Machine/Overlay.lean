import Chip8.Machine.History
import Chip8.Proofs.Machine.Footprint
import Chip8.Proofs.Screen.Sprite
import Mathlib.Algebra.Ring.Parity
import Mathlib.Tactic.ByContra

/-!
# The screen as overlaid sprites

Along a history, `Machine.overlays` keeps the sprites that were drawn since the screen was last
dark, with no regard to rows and masks. The main statement is `Machine.pixel_parity`: a pixel is
lit when an odd number of them cover it, and the flag register tells whether a drawing met a lit
pixel.
-/

namespace Chip8

/-- The sprite that a word of the form `DXYN` draws in a state. -/
def State.drawn {ρ : Type} (s : State ρ) (w : Word) : Sprite where
  x := (s.register w.x).toNat
  y := (s.register w.y).toNat
  patterns := (List.range w.n.toNat).map fun r => s.memory.byteAt (s.index.val + r)

/-- How many of the sprites cover a pixel. -/
def Sprite.layers (mode : EdgeMode) (sprites : List Sprite) (px : Fin 64) (py : Fin 32) : Nat :=
  sprites.countP fun t => t.Covers mode px py

theorem odd_countP_cons {α : Type} (p : α → Bool) (a : α) (l : List α) :
    decide (Odd ((a :: l).countP p)) = (decide (Odd (l.countP p)) ^^ p a) := by
  by_cases hp : p a = true
  · rw [List.countP_cons_of_pos hp, hp, Bool.xor_true, ← decide_not, decide_eq_decide]
    exact Nat.odd_add_one
  · rw [List.countP_cons_of_neg hp, eq_false_of_ne_true hp, Bool.xor_false]

namespace Machine

section Sprites

variable {ρ : Type} [RandomSource ρ]

/-- The sprites on the screen after one more command, the newest first. -/
def overlay (m : Machine ρ) (sprites : List Sprite) : Command → List Sprite
  | .step =>
    match m.step.1 with
    | .ok w =>
      if w = 0x00E0#16 then []
      else if w.family = 0xD then m.state.drawn w :: sprites
      else sprites
    | .error _ => sprites
  | .press _ => sprites
  | .release _ => sprites
  | .reset => []

def overlays (m : Machine ρ) (sprites : List Sprite) : List Command → List Sprite
  | [] => sprites
  | command :: rest => (m.perform command).overlays (m.overlay sprites command) rest

end Sprites

/-! ### One drawing -/

section Drawing

variable {ρ : Type}

theorem length_drawn (s : State ρ) (w : Word) : (s.drawn w).patterns.length ≤ 32 := by
  have hn := w.n.isLt
  simp only [State.drawn, List.length_map, List.length_range]
  omega

theorem odd_layers_cons (mode : EdgeMode) (t : Sprite) (sprites : List Sprite) (px : Fin 64)
    (py : Fin 32) : decide (Odd (Sprite.layers mode (t :: sprites) px py)) =
      (decide (Odd (Sprite.layers mode sprites px py)) ^^ decide (t.Covers mode px py)) :=
  odd_countP_cons _ t sprites

theorem edgeMode_effect [RandomSource ρ] (set : InstructionSet) (i : Instruction) (s : State ρ) :
    (i.effect set s).screen.edgeMode = s.screen.edgeMode := by
  rw [Instruction.screen_effect]
  cases i with
  | draw x y height => exact Screen.edgeMode_flipSprite _ _ _ _
  | _ => rfl

theorem lit_effect_draw [RandomSource ρ] (set : InstructionSet) (s : State ρ) (w : Word)
    (px : Fin 64) (py : Fin 32) :
    ((Instruction.draw w.x w.y w.n).effect set s).screen.lit px py =
      (s.screen.lit px py ^^ decide ((s.drawn w).Covers s.screen.edgeMode px py)) := by
  rw [Instruction.screen_effect]
  exact Screen.lit_flipSprite (length_drawn s w) px py

end Drawing

/-! ### What a machine shows -/

/-- The screen is made of the sprites. Its own edge mode is the one that the machine was set up
with. -/
structure Shows {ρ : Type} (mode : EdgeMode) (m : Machine ρ) (sprites : List Sprite) : Prop where
  active : m.instructions ≠ .idle
  machineMode : m.edgeMode = mode
  screenMode : m.state.screen.edgeMode = mode
  parity : ∀ (px : Fin 64) (py : Fin 32),
    m.state.screen.lit px py = decide (Odd (Sprite.layers mode sprites px py))

namespace Shows

variable {ρ : Type} {mode : EdgeMode} {m m' : Machine ρ} {sprites : List Sprite}

theorem powerOn (program : Program) (legacy : Bool) (frequency : Int) (mode : EdgeMode)
    (random : ρ) :
    Shows mode (powerOn program (.ofLegacyShift legacy) frequency mode random) [] where
  active := by
    intro h
    cases legacy <;> cases h
  machineMode := rfl
  screenMode := rfl
  parity := fun px py => Screen.lit_blank mode px py

/-- Nothing but the screen counts. -/
theorem of_screen (h : Shows mode m sprites) (hset : m'.instructions = m.instructions)
    (hmode : m'.edgeMode = m.edgeMode) (hs : m'.state.screen.edgeMode = m.state.screen.edgeMode)
    (hr : m'.state.screen.rows = m.state.screen.rows) : Shows mode m' sprites where
  active := hset ▸ h.active
  machineMode := hmode.trans h.machineMode
  screenMode := hs.trans h.screenMode
  parity := by
    intro px py
    rw [Screen.lit_congr hr]
    exact h.parity px py

theorem key (h : Shows mode m sprites) (key : Int) (down : Bool) :
    Shows mode ((m.setKey key down).toOption.getD m) sprites := by
  rcases m.setKey_cases key down with he | ⟨k, he⟩
  · rw [he]
    exact h
  · rw [he]
    exact h.of_screen rfl rfl rfl rfl

variable [RandomSource ρ]

theorem step (h : Shows mode m sprites) : Shows mode m.step.2 (m.overlay sprites .step) := by
  have ho := m.step_outcome
  rw [overlay]
  generalize m.step = result at ho ⊢
  cases ho with
  | unfetched hp => exact h.of_screen rfl rfl rfl rfl
  | faulted hp hf => exact h.of_screen rfl rfl rfl rfl
  | executed hp hf =>
    obtain ⟨i, hw, hi, he⟩ := Word.standsFor_of_fault?_eq_none h.active hf
    rw [he]
    have hmode : (i.effect m.instructions m.fetched).screen.edgeMode = m.state.screen.edgeMode :=
      edgeMode_effect m.instructions i m.fetched
    dsimp only
    -- only clearing and drawing alter rows; every other word is covered by its footprint
    by_cases h0 : m.nextWord = 0x00E0#16
    · obtain rfl := hw.unique (.clear h0)
      rw [if_pos h0]
      exact {
        active := h.active
        machineMode := h.machineMode
        screenMode := hmode.trans h.screenMode
        parity := fun px py => Screen.lit_clear _ px py }
    · by_cases hD : m.nextWord.family = 0xD
      · obtain rfl := hw.unique (.draw hD)
        rw [if_neg h0, if_pos hD]
        refine ⟨h.active, h.machineMode, hmode.trans h.screenMode, ?_⟩
        intro px py
        have hdraw := lit_effect_draw m.instructions m.fetched m.nextWord px py
        have hd : m.fetched.drawn m.nextWord = m.state.drawn m.nextWord := rfl
        have hm : m.fetched.screen.edgeMode = mode := h.screenMode
        rw [hd, hm, screen_fetched, Screen.lit_settle, h.parity px py] at hdraw
        rw [odd_layers_cons, ← hdraw]
        rfl
      · rw [if_neg h0, if_neg hD]
        refine h.of_screen rfl rfl hmode ?_
        by_contra hr
        rcases hw.rows hr with hc | hc
        · exact h0 hc
        · exact hD hc

theorem perform (h : Shows mode m sprites) (command : Command) :
    Shows mode (m.perform command) (m.overlay sprites command) := by
  cases command with
  | step => exact h.step
  | press key => exact h.key key true
  | release key => exact h.key key false
  | reset =>
    exact {
      active := h.active
      machineMode := h.machineMode
      screenMode := h.machineMode
      parity := fun px py => Screen.lit_blank _ px py }

theorem replay (h : Shows mode m sprites) (history : List Command) :
    Shows mode (m.replay history) (m.overlays sprites history) := by
  induction history generalizing m sprites with
  | nil => exact h
  | cons command rest ih => exact ih (h.perform command)

end Shows

/-! ### The main statement -/

variable {ρ : Type} [RandomSource ρ]

theorem flag_of_draw {m m' : Machine ρ} {w : Word} (hset : m.instructions ≠ .idle)
    (hstep : m.step = (.ok w, m')) (hD : w.family = 0xD) :
    ∃ hit : Bool, m'.state.register .flag = (if hit then 1 else 0) ∧
      (hit = true ↔ ∃ px py, (m.state.drawn w).Covers m.state.screen.edgeMode px py ∧
        m.state.screen.lit px.val py = true) := by
  have ho := m.step_outcome
  rw [hstep] at ho
  cases ho with
  | executed hp hf =>
    obtain ⟨i, hw, hi, he⟩ := Word.standsFor_of_fault?_eq_none hset hf
    obtain rfl := hw.unique (.draw hD)
    let t := m.fetched.drawn m.nextWord
    refine ⟨m.fetched.screen.hitsSprite t.x t.y t.patterns, ?_,
      Screen.hitsSprite_iff (length_drawn m.fetched m.nextWord)⟩
    have hflag := m.fetched.register_setFlag .flag (m.fetched.screen.hitsSprite t.x t.y t.patterns)
    rw [if_pos rfl] at hflag
    rw [he, ← hflag]
    simp only [after, State.register, Instruction.registers_effect]
    rfl

/-- After every history a pixel is lit if an odd number of the sprites drawn since the screen was
last dark cover it. A drawing that succeeds leaves 1 in the flag register if it met a lit pixel,
and 0 otherwise. -/
theorem pixel_parity (program : Program) (legacy : Bool) (frequency : Int) (mode : EdgeMode)
    (random : ρ) (history : List Command) :
    let start := powerOn program (.ofLegacyShift legacy) frequency mode random
    let m := start.replay history
    (∀ (px : Fin 64) (py : Fin 32), m.state.screen.getPixel px.val py.val = true ↔
      Odd (Sprite.layers mode (start.overlays [] history) px py)) ∧
    (∀ w m', m.step = (.ok w, m') → w.family = 0xD → ∃ hit : Bool,
      m'.state.register .flag = (if hit then 1 else 0) ∧
      (hit = true ↔ ∃ (px : Fin 64) (py : Fin 32), (m.state.drawn w).Covers mode px py ∧
        m.state.screen.getPixel px.val py.val = true)) := by
  intro start m
  have h : Shows mode m (start.overlays [] history) :=
    (Shows.powerOn program legacy frequency mode random).replay history
  simp only [Screen.getPixel_eq]
  constructor
  · intro px py
    rw [h.parity, decide_eq_true_iff]
  · intro w m' hstep hD
    have hflag := flag_of_draw h.active hstep hD
    rw [h.screenMode] at hflag
    exact hflag

/-- The glyph of the digit 0 in the corner of a dark screen. -/
theorem pixel_parity_glyph :
    let m := started ⟨[0xF0, 0x29, 0xD0, 0x05], by decide⟩
    m.state.screen.getPixel 0 0 = false ∧
    (m.perform .step).step = (.ok 0xD005#16, m.replay [.step, .step]) ∧
    Odd (Sprite.layers .clip (m.overlays [] [.step, .step]) 0 0) ∧
    ∃ hit : Bool, (m.replay [.step, .step]).state.register .flag = if hit then 1 else 0 := by
  intro m
  have hparity := pixel_parity ⟨[0xF0, 0x29, 0xD0, 0x05], by decide⟩ false 600 .clip
    (⟨#[], 0⟩ : Cycle)
  have hstep : (m.perform .step).step = (.ok 0xD005#16, m.replay [.step, .step]) :=
    step_of_toOption (by decide +kernel)
  obtain ⟨hit, hflag, _⟩ := (hparity [.step]).2 _ _ hstep (by decide)
  exact ⟨by decide +kernel, hstep, ((hparity [.step, .step]).1 0 0).1 (by decide +kernel), hit, hflag⟩

end Machine

end Chip8
