import Chip8.Proofs.Byte
import Chip8.Proofs.Screen.Pixel

/-!
# Patterns on a screen

What the operations on eight pixels of a row do to each pixel, for integers of any size as pattern and
place, and that an operation on one pixel is the one whose pattern is its first pixel. The main statement
is `pattern_operations`.
-/

namespace Chip8

namespace EdgeMode

/-- Of the low eight bits of an integer, the highest first, one that is set lands in the column. -/
def Reaches (mode : EdgeMode) (vector x : Int) (px : Fin 64) : Prop :=
  ∃ i < 8, vector.testBit (7 - i) = true ∧ mode.Lands x i px

instance (mode : EdgeMode) (vector x : Int) (px : Fin 64) : Decidable (mode.Reaches vector x px) :=
  inferInstanceAs (Decidable (∃ i, i < 8 ∧ _))

theorem covers_ofInt {mode : EdgeMode} {vector x : Int} {px : Fin 64} :
    mode.Covers (Byte.ofInt vector) x px ↔ mode.Reaches vector x px := by
  have hbit : ∀ i, (Byte.ofInt vector).getLsbD (7 - i) = vector.testBit (7 - i) := by
    intro i
    rw [Byte.getLsbD_ofInt, decide_eq_true (by omega), Bool.true_and]
  simp only [Covers, Reaches, hbit]

end EdgeMode

namespace Screen

/-! ### Altered pixels -/

variable (s : Screen) (pattern : Byte) (x y : Int) (px : Fin 64) (py : Fin 32)

theorem lit_setPattern : (s.setPattern pattern x y).lit px py =
    if line y = py ∧ s.edgeMode.Covers pattern x px then true else s.lit px py := by
  rw [setPattern, lit_updateRow, BitVec.getMsbD_or, getMsbD_mask, ← lit_eq]
  by_cases hy : line y = py <;> by_cases hc : s.edgeMode.Covers pattern x px <;> simp [hy, hc]

theorem lit_unsetPattern : (s.unsetPattern pattern x y).lit px py =
    if line y = py ∧ s.edgeMode.Covers pattern x px then false else s.lit px py := by
  rw [unsetPattern, lit_updateRow, BitVec.getMsbD_and, BitVec.getMsbD_not, getMsbD_mask, ← lit_eq]
  by_cases hy : line y = py <;> by_cases hc : s.edgeMode.Covers pattern x px <;> simp [hy, hc]

theorem lit_toggled : (s.flipPattern pattern x y).lit px py =
    if line y = py ∧ s.edgeMode.Covers pattern x px then !s.lit px py else s.lit px py := by
  rw [lit_flipPattern]
  by_cases hc : line y = py ∧ s.edgeMode.Covers pattern x px
  · rw [if_pos hc, decide_eq_true hc, Bool.xor_true]
  · rw [if_neg hc, decide_eq_false hc, Bool.xor_false]

/-! ### Pixels that are read -/

theorem getLsbD_getPattern {i : Nat} (hi : i < 8) : (s.getPattern x y).getLsbD (7 - i) =
    match s.edgeMode with
    | .clip => (s.row (line y)).getMsbD (column x + i)
    | .wrap => (s.row (line y)).getMsbD ((column x + i) % 64) := by
  have hbit : ∀ row : Row, (row.extractLsb' 56 8).getLsbD (7 - i) = row.getMsbD i := by
    intro row
    have hplace : 56 + (7 - i) = 64 - 1 - i := by omega
    rw [BitVec.getLsbD_extractLsb', decide_eq_true (by omega), Bool.true_and, hplace, BitVec.getMsbD,
      decide_eq_true (by omega), Bool.true_and]
  unfold getPattern
  cases s.edgeMode with
  | clip => simp only [hbit, BitVec.getMsbD_shiftLeft, Nat.add_comm i]
  | wrap =>
    simp only [hbit, BitVec.getMsbD_rotateLeft, decide_eq_true (by omega : i < 64), Bool.true_and]

/-- The bit of a pixel that is read is the pixel in which a pattern's bit would land. -/
theorem getLsbD_getPattern_of_lands {i : Nat} (hi : i < 8) (h : s.edgeMode.Lands x i px) :
    (s.getPattern x y).getLsbD (7 - i) = s.lit px (line y) := by
  have hc := cast_column x
  have hp := px.isLt
  rw [getLsbD_getPattern s x y hi, lit_eq]
  cases hm : s.edgeMode with
  | clip =>
    rw [hm] at h
    have hplace : column x + i = px := by
      simp only [EdgeMode.Lands] at h
      omega
    simp only [hplace]
  | wrap =>
    rw [hm] at h
    have hplace : (column x + i) % 64 = px := by
      simp only [EdgeMode.Lands] at h
      omega
    simp only [hplace]

theorem getLsbD_getPattern_of_beyond {i : Nat} (hi : i < 8)
    (h : ∀ px, ¬ s.edgeMode.Lands x i px) : (s.getPattern x y).getLsbD (7 - i) = false := by
  have hc := cast_column x
  rw [getLsbD_getPattern s x y hi]
  cases hm : s.edgeMode with
  | clip =>
    rw [hm] at h
    -- a column of the screen would be one in which the bit lands
    have hout : 64 ≤ column x + i := by
      refine Nat.not_lt.1 fun hin => h ⟨column x + i, hin⟩ ?_
      simp only [EdgeMode.Lands]
      omega
    rw [BitVec.getMsbD, decide_eq_false (by omega), Bool.false_and]
  | wrap =>
    rw [hm] at h
    refine absurd ?_ (h ⟨(column x + i) % 64, by omega⟩)
    simp only [EdgeMode.Lands]
    omega

/-! ### The main statement -/

/-- A set bit of the pattern `vector` at `(x, y)` lands in the pixel. -/
def Meets (s : Screen) (vector x y : Int) (px : Fin 64) (py : Fin 32) : Prop :=
  y % 32 = py.val ∧ s.edgeMode.Reaches vector x px

instance (s : Screen) (vector x y : Int) (px : Fin 64) (py : Fin 32) :
    Decidable (s.Meets vector x y px py) :=
  inferInstanceAs (Decidable (_ ∧ _))

theorem meets_iff {s : Screen} {vector x y : Int} {px : Fin 64} {py : Fin 32} :
    s.Meets vector x y px py ↔ line y = py ∧ s.edgeMode.Covers (Byte.ofInt vector) x px := by
  rw [Meets, line_eq_iff, EdgeMode.covers_ofInt]

/-- An operation on pixels gives a screen of the same mode that counts as changed, with 64 pixels to a
row. -/
def Alters (s t : Screen) : Prop :=
  t.changed = true ∧ t.edgeMode = s.edgeMode ∧ ∀ py, (t.row py).toNat < 18446744073709551616

theorem alters_updateRow (s : Screen) (py : Fin 32) (f : Row → Row) : s.Alters (s.updateRow py f) :=
  ⟨rfl, rfl, fun qy => ((s.updateRow py f).row qy).isLt⟩

/-- The operations on the eight pixels from `(x, y)` on. -/
structure PatternOperations (s : Screen) (vector x y : Int) : Prop where
  set : ∀ px py, (s.setPattern (Byte.ofInt vector) x y).lit px.val py =
    if s.Meets vector x y px py then true else s.lit px py
  unset : ∀ px py, (s.unsetPattern (Byte.ofInt vector) x y).lit px.val py =
    if s.Meets vector x y px py then false else s.lit px py
  flip : ∀ px py, (s.flipPattern (Byte.ofInt vector) x y).lit px.val py =
    if s.Meets vector x y px py then !s.lit px py else s.lit px py
  alters : s.Alters (s.setPattern (Byte.ofInt vector) x y) ∧
    s.Alters (s.unsetPattern (Byte.ofInt vector) x y) ∧
    s.Alters (s.flipPattern (Byte.ofInt vector) x y)
  /-- A flip reports that it met a lit pixel. -/
  hits : s.hits (Byte.ofInt vector) x y = true ↔
    ∃ px py, s.Meets vector x y px py ∧ s.lit px.val py = true
  get : ∀ i < 8, ∀ py : Fin 32, y % 32 = py.val →
    (∀ px : Fin 64, s.edgeMode.Lands x i px →
      (s.getPattern x y).getLsbD (7 - i) = s.lit px py) ∧
    ((∀ px : Fin 64, ¬ s.edgeMode.Lands x i px) → (s.getPattern x y).getLsbD (7 - i) = false)

/-- The operations on the single pixel at `(x, y)`. -/
structure PixelOperations (s : Screen) (x y : Int) : Prop where
  set : ∀ (px : Fin 64) (py : Fin 32), (s.setPixel x y).lit px py =
    if x % 64 = px.val ∧ y % 32 = py.val then true else s.lit px py
  unset : ∀ (px : Fin 64) (py : Fin 32), (s.unsetPixel x y).lit px py =
    if x % 64 = px.val ∧ y % 32 = py.val then false else s.lit px py
  flip : ∀ (px : Fin 64) (py : Fin 32), (s.flipPixel x y).lit px py =
    if x % 64 = px.val ∧ y % 32 = py.val then !s.lit px py else s.lit px py
  alters : s.Alters (s.setPixel x y) ∧ s.Alters (s.unsetPixel x y) ∧ s.Alters (s.flipPixel x y)
  /-- What a flip reports is what reading the pixel before it gives. -/
  get : ∀ (px : Fin 64) (py : Fin 32), x % 64 = px.val → y % 32 = py.val →
    s.getPixel x y = s.lit px py

theorem dot_place_iff {s : Screen} {x y : Int} {px : Fin 64} {py : Fin 32} :
    line y = py ∧ s.edgeMode.Covers dot x px ↔ x % 64 = px.val ∧ y % 32 = py.val := by
  rw [line_eq_iff, covers_dot_iff, and_comm]

theorem pixelOperations (s : Screen) (x y : Int) : s.PixelOperations x y where
  set := by
    intro px py
    simp only [setPixel, lit_setPattern, dot_place_iff]
  unset := by
    intro px py
    simp only [unsetPixel, lit_unsetPattern, dot_place_iff]
  flip := by
    intro px py
    simp only [flipPixel, lit_toggled, dot_place_iff]
  alters := ⟨s.alters_updateRow _ _, s.alters_updateRow _ _, s.alters_updateRow _ _⟩
  get := fun _ _ => getPixel_of_place

/-- The operations on eight pixels light, darken, toggle and read the pixels in which the pattern's bits
land, and no others; those on one pixel do so with the pixel at their place. -/
theorem pattern_operations (s : Screen) (vector x y : Int) :
    s.PatternOperations vector x y ∧ s.PixelOperations x y := by
  refine ⟨?_, s.pixelOperations x y⟩
  exact {
    set := by
      intro px py
      simp only [lit_setPattern, meets_iff]
    unset := by
      intro px py
      simp only [lit_unsetPattern, meets_iff]
    flip := by
      intro px py
      simp only [lit_toggled, meets_iff]
    alters := ⟨s.alters_updateRow _ _, s.alters_updateRow _ _, s.alters_updateRow _ _⟩
    hits := by
      simp only [hits_iff, meets_iff]
      constructor
      · rintro ⟨px, hc, hl⟩
        exact ⟨px, line y, ⟨rfl, hc⟩, hl⟩
      · rintro ⟨px, py, ⟨rfl, hc⟩, hl⟩
        exact ⟨px, hc, hl⟩
    get := by
      intro i hi py hy
      obtain rfl := line_eq_iff.2 hy
      exact ⟨fun px => s.getLsbD_getPattern_of_lands x y px hi,
        s.getLsbD_getPattern_of_beyond x y hi⟩ }

end Screen

end Chip8
