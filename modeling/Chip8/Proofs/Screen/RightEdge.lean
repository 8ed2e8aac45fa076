import Chip8.Proofs.Screen.Sprite

/-!
# The right edge

Where a pattern sets no pixel beyond the right edge, the edge mode makes no difference: the masks are
equal in this case and in no other, and a sprite of such patterns toggles and hits the same pixels. The
main statements are `mask_wrap_eq_clip_iff` and `flipSprite_wrapped`.
-/

namespace Chip8

namespace Screen

/-- At column `x` the low `column x - 56` bits of a pattern lie beyond the edge. -/
theorem mask_wrap_eq_clip_iff {pattern : Byte} {x : Int} :
    mask .wrap pattern x = mask .clip pattern x ↔
      ∀ j < column x - 56, pattern.getLsbD j = false := by
  have hx := column_lt x
  constructor
  · intro h j hj
    -- the column at which bit `j` comes back when it is wrapped
    have hp : column x - 57 - j < 64 := by omega
    have hbit := congrArg (fun row : Row => row.getMsbD (column x - 57 - j)) h
    have hi : (column x - 57 - j + 64 - column x) % 64 = 7 - j := by omega
    have hj8 : 7 - j < 8 := by omega
    have hback : 8 - 1 - (7 - j) = j := by omega
    have hle : ¬ column x ≤ column x - 57 - j := by omega
    simp only [getMsbD_mask_wrap, getMsbD_mask_clip, decide_eq_true hp, decide_eq_false hle, hi,
      Bool.true_and, Bool.false_and] at hbit
    rw [BitVec.getMsbD, decide_eq_true hj8, Bool.true_and, hback] at hbit
    exact hbit
  · intro h
    apply BitVec.eq_of_getMsbD_eq
    intro p hp
    rw [getMsbD_mask_wrap, getMsbD_mask_clip, decide_eq_true hp, Bool.true_and, Bool.true_and]
    by_cases hle : column x ≤ p
    · have hi : (p + 64 - column x) % 64 = p - column x := by omega
      rw [hi, decide_eq_true hle, Bool.true_and]
    · have hi : (p + 64 - column x) % 64 = p + 64 - column x := by omega
      rw [hi, decide_eq_false hle, Bool.false_and, BitVec.getMsbD]
      by_cases h8 : p + 64 - column x < 8
      · rw [h (8 - 1 - (p + 64 - column x)) (by omega), Bool.and_false]
      · rw [decide_eq_false h8, Bool.false_and]

/-- The same pixels in the mode that wraps. -/
def wrapped (s : Screen) : Screen := { s with edgeMode := .wrap }

variable {s : Screen} {p : Byte} {x : Int} {patterns : List Byte}

theorem flipPattern_wrapped (hs : s.edgeMode = .clip) (hm : mask .wrap p x = mask .clip p x)
    (y : Int) : s.wrapped.flipPattern p x y = (s.flipPattern p x y).wrapped := by
  unfold flipPattern
  rw [hs, ← hm]
  rfl

theorem hits_wrapped (hs : s.edgeMode = .clip) (hm : mask .wrap p x = mask .clip p x) (y : Int) :
    s.wrapped.hits p x y = s.hits p x y := by
  unfold hits
  rw [hs, ← hm]
  rfl

theorem flipSprite_wrapped (hs : s.edgeMode = .clip)
    (hm : ∀ p ∈ patterns, mask .wrap p x = mask .clip p x) (y : Int) :
    s.wrapped.flipSprite x y patterns = (s.flipSprite x y patterns).wrapped ∧
      s.wrapped.hitsSprite x y patterns = s.hitsSprite x y patterns := by
  induction patterns generalizing s y with
  | nil => exact ⟨rfl, rfl⟩
  | cons p rest ih =>
    rw [List.forall_mem_cons] at hm
    obtain ⟨hflip, hhits⟩ := ih (s := s.flipPattern p x y) hs hm.2 (y + 1)
    rw [flipSprite, hitsSprite, flipPattern_wrapped hs hm.1, hits_wrapped hs hm.1, hflip, hhits]
    exact ⟨rfl, rfl⟩

end Screen

/-- The column is at most 56, or no pattern sets a pixel beyond the right edge. -/
def Sprite.StaysInside (t : Sprite) : Prop :=
  t.x % 64 ≤ 56 ∨ ∀ p ∈ t.patterns, ∀ j < (t.x % 64).toNat - 56, p.getLsbD j = false

instance (t : Sprite) : Decidable t.StaysInside := inferInstanceAs (Decidable (_ ∨ _))

theorem Sprite.StaysInside.mask_eq {t : Sprite} (h : t.StaysInside) :
    ∀ p ∈ t.patterns, Screen.mask .wrap p t.x = Screen.mask .clip p t.x := by
  intro p hp
  rw [Screen.mask_wrap_eq_clip_iff]
  intro j hj
  rcases h with hx | hbits
  · unfold Screen.column at hj
    omega
  · exact hbits p hp j hj

end Chip8
