import Chip8.Proofs.Screen.Pixel

/-!
# Sprites

A sprite of at most 32 lines puts every line in a row of its own, so drawing it toggles each
pixel that it covers once, and whether it hits the screen can be judged before any line is drawn.
The main statements are `lit_flipSprite` and `hitsSprite_iff`.
-/

namespace Chip8

/-- Patterns to draw line by line, downwards from a place. -/
structure Sprite where
  x : Int
  y : Int
  patterns : List Byte
  deriving DecidableEq, Repr

namespace Sprite

/-- Pixel `c` of line `r` is set and lands in column `px` of row `py`. -/
def Covers (t : Sprite) (mode : EdgeMode) (px : Fin 64) (py : Fin 32) : Prop :=
  ∃ r < t.patterns.length, (t.y + r) % 32 = py.val ∧
    ∃ c < 8, (t.patterns.getD r 0).getLsbD (7 - c) = true ∧ mode.Lands t.x c px

instance (t : Sprite) (mode : EdgeMode) (px : Fin 64) (py : Fin 32) :
    Decidable (t.Covers mode px py) :=
  inferInstanceAs (Decidable (∃ r, r < t.patterns.length ∧ _ ∧ ∃ c, c < 8 ∧ _))

variable {mode : EdgeMode} {x y : Int} {p : Byte} {rest : List Byte} {px : Fin 64} {py : Fin 32}

theorem not_covers_nil : ¬ (mk x y []).Covers mode px py := by
  rintro ⟨r, hr, _⟩
  exact Nat.not_lt_zero r hr

/-- The first line by itself, and the sprite that the other lines make. -/
theorem covers_cons : (mk x y (p :: rest)).Covers mode px py ↔
    (y % 32 = py.val ∧ mode.Covers p x px) ∨ (mk x (y + 1) rest).Covers mode px py := by
  have hnext : ∀ r : Nat, y + 1 + (r : Int) = y + (r + 1 : Nat) := by
    intro r
    omega
  constructor
  · rintro ⟨r, hr, hy, hc⟩
    cases r with
    | zero => exact .inl ⟨by simpa using hy, hc⟩
    | succ r =>
      refine .inr ⟨r, Nat.lt_of_succ_lt_succ hr, ?_, hc⟩
      rw [hnext]
      exact hy
  · rintro (⟨hy, hc⟩ | ⟨r, hr, hy, hc⟩)
    · exact ⟨0, Nat.succ_pos _, by simpa using hy, hc⟩
    · refine ⟨r + 1, Nat.succ_lt_succ hr, ?_, hc⟩
      rw [← hnext]
      exact hy

/-- Fewer than 32 lines do not come back to the row above them. -/
theorem row_ne_of_covers (h : rest.length < 32) (hc : (mk x (y + 1) rest).Covers mode px py) :
    y % 32 ≠ py.val := by
  obtain ⟨r, hr, hy, _⟩ := hc
  simp only at hr hy
  omega

end Sprite

namespace Screen

theorem edgeMode_flipSprite (s : Screen) (x y : Int) (patterns : List Byte) :
    (s.flipSprite x y patterns).edgeMode = s.edgeMode := by
  induction patterns generalizing s y with
  | nil => rfl
  | cons p rest ih => exact ih (s.flipPattern p x y) (y + 1)

/-- Drawing toggles the pixels that the sprite covers. -/
theorem lit_flipSprite {s : Screen} {x y : Int} {patterns : List Byte}
    (h : patterns.length ≤ 32) (px : Fin 64) (py : Fin 32) :
    (s.flipSprite x y patterns).lit px py =
      (s.lit px py ^^ decide ((Sprite.mk x y patterns).Covers s.edgeMode px py)) := by
  induction patterns generalizing s y with
  | nil =>
    rw [decide_eq_false Sprite.not_covers_nil, Bool.xor_false]
    rfl
  | cons p rest ih =>
    simp only [List.length_cons] at h
    have hm : (s.flipPattern p x y).edgeMode = s.edgeMode := rfl
    rw [flipSprite, ih (by omega), hm, lit_flipPattern, Bool.xor_assoc]
    -- the first line and the others never cover the same pixel, so their toggles do not cancel
    congr 1
    simp only [Sprite.covers_cons, line_eq_iff, Bool.decide_or]
    by_cases hc : (Sprite.mk x (y + 1) rest).Covers s.edgeMode px py
    · have hne := Sprite.row_ne_of_covers (by omega) hc
      simp only [hne, hc, false_and, decide_false, decide_true, Bool.false_xor, Bool.or_true]
    · simp only [hc, decide_false, Bool.xor_false, Bool.or_false]

/-- A sprite hits the screen if one of the pixels that it covers is lit before it is drawn. -/
theorem hitsSprite_iff {s : Screen} {x y : Int} {patterns : List Byte}
    (h : patterns.length ≤ 32) : s.hitsSprite x y patterns = true ↔
      ∃ px py, (Sprite.mk x y patterns).Covers s.edgeMode px py ∧ s.lit px py = true := by
  induction patterns generalizing s y with
  | nil =>
    constructor
    · intro hn
      cases hn
    · rintro ⟨px, py, hc, _⟩
      exact absurd hc Sprite.not_covers_nil
  | cons p rest ih =>
    simp only [List.length_cons] at h
    have hm : (s.flipPattern p x y).edgeMode = s.edgeMode := rfl
    rw [hitsSprite, Bool.or_eq_true, hits_iff, ih (by omega), hm]
    simp only [Sprite.covers_cons]
    -- the first line leaves the rows of the others as they are
    have hkeep : ∀ {px py}, (Sprite.mk x (y + 1) rest).Covers s.edgeMode px py →
        (s.flipPattern p x y).lit px py = s.lit px py := by
      intro px py hc
      have hne := Sprite.row_ne_of_covers (by omega) hc
      simp only [lit_flipPattern, line_eq_iff, hne, false_and, decide_false, Bool.xor_false]
    constructor
    · rintro (⟨px, hc, hl⟩ | ⟨px, py, hc, hl⟩)
      · exact ⟨px, line y, .inl ⟨line_eq_iff.1 rfl, hc⟩, hl⟩
      · exact ⟨px, py, .inr hc, (hkeep hc).symm.trans hl⟩
    · rintro ⟨px, py, ⟨hy, hc⟩ | hc, hl⟩
      · obtain rfl := line_eq_iff.2 hy
        exact .inl ⟨px, hc, hl⟩
      · exact .inr ⟨px, py, hc, (hkeep hc).trans hl⟩

end Screen

end Chip8
