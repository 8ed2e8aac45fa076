import Chip8.Screen.Picture

/-!
# Pixels

The operations on rows and masks, told pixel by pixel. `EdgeMode.Lands` places the pixels of a
pattern, and `EdgeMode.Covers` says which columns a pattern covers. The main statements are
`getMsbD_mask_iff`, `lit_flipPattern` and `hits_iff`.
-/

namespace Chip8

namespace EdgeMode

/-- Does pixel `i` of a pattern at column `x`, counted from the left, land in column `px`? -/
def Lands (mode : EdgeMode) (x : Int) (i : Nat) (px : Fin 64) : Prop :=
  match mode with
  | .clip => x % 64 + i = px.val
  | .wrap => (x + i) % 64 = px.val

instance (mode : EdgeMode) (x : Int) (i : Nat) (px : Fin 64) : Decidable (mode.Lands x i px) :=
  match mode with
  | .clip => inferInstanceAs (Decidable (_ = _))
  | .wrap => inferInstanceAs (Decidable (_ = _))

def Covers (mode : EdgeMode) (pattern : Byte) (x : Int) (px : Fin 64) : Prop :=
  ∃ i < 8, pattern.getLsbD (7 - i) = true ∧ mode.Lands x i px

instance (mode : EdgeMode) (pattern : Byte) (x : Int) (px : Fin 64) :
    Decidable (mode.Covers pattern x px) :=
  inferInstanceAs (Decidable (∃ i, i < 8 ∧ _))

end EdgeMode

/-! ### Masks -/

theorem Byte.getMsbD_iff {b : Byte} {i : Nat} :
    b.getMsbD i = true ↔ i < 8 ∧ b.getLsbD (7 - i) = true := by
  simp [BitVec.getMsbD]

namespace Screen

theorem cast_column (x : Int) : (column x : Int) = x % 64 := by
  unfold column
  omega

theorem getMsbD_mask_iff {mode : EdgeMode} {pattern : Byte} {x : Int} {px : Fin 64} :
    (mask mode pattern x).getMsbD px = true ↔ mode.Covers pattern x px := by
  have hx := column_lt x
  have hc := cast_column x
  have hp := px.isLt
  cases mode with
  | clip =>
    rw [getMsbD_mask_clip, decide_eq_true hp, Bool.true_and, Bool.and_eq_true, decide_eq_true_iff,
      Byte.getMsbD_iff]
    constructor
    · rintro ⟨hle, hi, hb⟩
      refine ⟨px - column x, hi, hb, ?_⟩
      simp only [EdgeMode.Lands]
      omega
    · rintro ⟨i, hi, hb, hl⟩
      simp only [EdgeMode.Lands] at hl
      obtain rfl : i = px - column x := by omega
      exact ⟨by omega, hi, hb⟩
  | wrap =>
    rw [getMsbD_mask_wrap, decide_eq_true hp, Bool.true_and, Byte.getMsbD_iff]
    constructor
    · rintro ⟨hi, hb⟩
      refine ⟨(px + 64 - column x) % 64, hi, hb, ?_⟩
      simp only [EdgeMode.Lands]
      omega
    · rintro ⟨i, hi, hb, hl⟩
      simp only [EdgeMode.Lands] at hl
      obtain rfl : i = (px + 64 - column x) % 64 := by omega
      exact ⟨hi, hb⟩

theorem getMsbD_mask (mode : EdgeMode) (pattern : Byte) (x : Int) (px : Fin 64) :
    (mask mode pattern x).getMsbD px = decide (mode.Covers pattern x px) := by
  rw [Bool.eq_iff_iff, getMsbD_mask_iff, decide_eq_true_iff]

/-! ### Pixels of a screen -/

theorem and_one (r : Row) : r &&& 1 = (BitVec.ofBool (r.getLsbD 0)).setWidth 64 :=
  BitVec.and_one_eq_setWidth_ofBool_getLsbD

theorem and_one_beq_one (r : Row) : (r &&& 1 == 1) = r.getLsbD 0 := by
  rw [and_one]
  cases r.getLsbD 0 <;> rfl

theorem and_one_bne_zero (r : Row) : (r &&& 1 != 0) = r.getLsbD 0 := by
  rw [and_one]
  cases r.getLsbD 0 <;> rfl

theorem lit_eq (s : Screen) (px : Fin 64) (py : Fin 32) : s.lit px py = (s.row py).getMsbD px := by
  rw [lit, and_one_beq_one, BitVec.getLsbD_ushiftRight, BitVec.getMsbD, decide_eq_true px.isLt,
    Bool.true_and]
  rfl

theorem lit_congr {s t : Screen} (h : s.rows = t.rows) : s.lit = t.lit := by
  funext px py
  simp only [lit, row, h]

theorem lit_blank (mode : EdgeMode) (px : Fin 64) (py : Fin 32) :
    (blank mode).lit px py = false := by
  simp [lit_eq, row, blank]

theorem lit_clear (s : Screen) (px : Fin 64) (py : Fin 32) : s.clear.lit px py = false := by
  simp [lit_eq, row, clear]

theorem lit_settle (s : Screen) : s.settle.lit = s.lit := rfl

theorem lit_updateRow (s : Screen) (line : Fin 32) (f : Row → Row) (px : Fin 64) (py : Fin 32) :
    (s.updateRow line f).lit px py =
      if line = py then (f (s.row py)).getMsbD px else s.lit px py := by
  rw [lit_eq, lit_eq, row_updateRow]
  by_cases hy : line = py
  · rw [if_pos hy, if_pos hy, hy]
  · rw [if_neg hy, if_neg hy]

theorem lit_flipPattern (s : Screen) (pattern : Byte) (x y : Int) (px : Fin 64) (py : Fin 32) :
    (s.flipPattern pattern x y).lit px py =
      (s.lit px py ^^ decide (line y = py ∧ s.edgeMode.Covers pattern x px)) := by
  rw [flipPattern, lit_updateRow, BitVec.getMsbD_xor, getMsbD_mask, ← lit_eq]
  by_cases hy : line y = py <;> simp [hy]

theorem exists_getMsbD_of_ne_zero {r : Row} (h : r ≠ 0) : ∃ px : Fin 64, r.getMsbD px = true := by
  by_cases hall : ∀ px : Fin 64, r.getMsbD px = false
  · refine absurd ?_ h
    apply BitVec.eq_of_getMsbD_eq
    intro i hi
    exact (hall ⟨i, hi⟩).trans BitVec.getMsbD_zero.symm
  · obtain ⟨px, hpx⟩ := Classical.not_forall.1 hall
    exact ⟨px, eq_true_of_ne_false hpx⟩

/-- A pattern hits a screen if one of the pixels that it covers is lit. -/
theorem hits_iff {s : Screen} {pattern : Byte} {x y : Int} :
    s.hits pattern x y = true ↔
      ∃ px, s.edgeMode.Covers pattern x px ∧ s.lit px (line y) = true := by
  rw [hits, bne_iff_ne]
  constructor
  · intro h
    obtain ⟨px, hpx⟩ := exists_getMsbD_of_ne_zero h
    rw [BitVec.getMsbD_and, Bool.and_eq_true] at hpx
    exact ⟨px, getMsbD_mask_iff.1 hpx.2, (s.lit_eq px (line y)).trans hpx.1⟩
  · rintro ⟨px, hc, hl⟩ h0
    have hpx : (s.row (line y) &&& mask s.edgeMode pattern x).getMsbD px = true := by
      rw [BitVec.getMsbD_and, Bool.and_eq_true]
      exact ⟨(s.lit_eq px (line y)).symm.trans hl, getMsbD_mask_iff.2 hc⟩
    rw [h0] at hpx
    cases BitVec.getMsbD_zero.symm.trans hpx

/-- A single pixel lands in its own column, whatever the mode. -/
theorem covers_dot_iff {mode : EdgeMode} {x : Int} {px : Fin 64} :
    mode.Covers dot x px ↔ x % 64 = px.val := by
  have hp := px.isLt
  have hdot : ∀ i < 8, dot.getLsbD (7 - i) = true → i = 0 := by decide
  constructor
  · rintro ⟨i, hi, hb, hl⟩
    obtain rfl := hdot i hi hb
    cases mode <;> simp only [EdgeMode.Lands] at hl <;> omega
  · intro hx
    refine ⟨0, by decide, by decide, ?_⟩
    cases mode <;> simp only [EdgeMode.Lands] <;> omega

theorem line_eq_iff {y : Int} {py : Fin 32} : line y = py ↔ y % 32 = py.val := by
  rw [Fin.ext_iff, line]
  simp only
  omega

theorem getPixel_of_place {s : Screen} {x y : Int} {px : Fin 64} {py : Fin 32}
    (hx : x % 64 = px.val) (hy : y % 32 = py.val) : s.getPixel x y = s.lit px py := by
  obtain rfl := line_eq_iff.2 hy
  rw [Bool.eq_iff_iff, getPixel, hits_iff]
  constructor
  · rintro ⟨qx, hc, hl⟩
    have hq := covers_dot_iff.1 hc
    obtain rfl : qx = px := Fin.ext (by omega)
    exact hl
  · intro hl
    exact ⟨px, covers_dot_iff.2 hx, hl⟩

/-- The accessor of single pixels reads the rows. -/
theorem getPixel_eq (s : Screen) (px : Fin 64) (py : Fin 32) :
    s.getPixel px.val py.val = s.lit px py := by
  have hp := px.isLt
  have hq := py.isLt
  exact getPixel_of_place (by omega) (by omega)

end Screen

end Chip8
