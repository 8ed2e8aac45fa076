import Chip8.Word

/-!
# The screen

A framebuffer of 32 rows with 64 pixels each. A row is a 64-bit mask whose most significant bit
is column 0. Patterns of eight pixels are laid over a row from a column on, their most
significant bit first; columns count modulo 64 and rows modulo 32, so any integers are
coordinates. What happens to a pattern that crosses the right edge is the edge mode. The main
statements are `row_updateRow`, by which an operation alters one row, and `getMsbD_mask_clip` and
`getMsbD_mask_wrap`, which say what pixels a mask holds.
-/

namespace Chip8

/-- Eight-pixel patterns that cross the right edge lose the pixels beyond it, or continue at
column 0 of the same row. -/
inductive EdgeMode where
  | clip
  | wrap
  deriving DecidableEq, Repr

namespace EdgeMode

def name : EdgeMode → String
  | clip => "clip"
  | wrap => "wrap"

def ofName? (text : String) : Except UsageError EdgeMode :=
  if text = "clip" then .ok clip
  else if text = "wrap" then .ok wrap
  else .error (.edgeMode text)

end EdgeMode

/-- One row of pixels, column 0 in the most significant bit. -/
abbrev Row := BitVec 64

/-- A framebuffer. `changed` is set by every operation that may alter pixels. -/
structure Screen where
  edgeMode : EdgeMode
  rows : Vector Row 32
  changed : Bool
  deriving DecidableEq

namespace Screen

def blank (mode : EdgeMode) : Screen := ⟨mode, Vector.replicate 32 0, false⟩

/-! ### Coordinates and masks -/

/-- The column, from 0 to 63, that an integer names. -/
def column (x : Int) : Nat := (x % 64).toNat

/-- The row that an integer names. -/
def line (y : Int) : Fin 32 := ⟨(y % 32).toNat, by omega⟩

/-- The pattern of a single pixel. -/
def dot : Byte := 0x80

/-- The pixels of a row that a pattern placed at a column covers. -/
def mask (mode : EdgeMode) (pattern : Byte) (x : Int) : Row :=
  let left : Row := pattern.setWidth 64 <<< 56
  match mode with
  | .clip => left >>> column x
  | .wrap => left.rotateRight (column x)

theorem column_lt (x : Int) : column x < 64 := by
  unfold column
  omega

/-! ### Patterns -/

def row (s : Screen) (y : Fin 32) : Row := s.rows[y]

/-- The screen with one row replaced by its image under a function, marked as changed. -/
def updateRow (s : Screen) (y : Fin 32) (f : Row → Row) : Screen :=
  { s with rows := s.rows.set y (f s.rows[y]), changed := true }

theorem row_updateRow (s : Screen) (y z : Fin 32) (f : Row → Row) :
    (s.updateRow y f).row z = if y = z then f (s.row y) else s.row z := by
  simp only [updateRow, row, Fin.getElem_fin, Vector.getElem_set, Fin.ext_iff]

/-- Lights the pixels of a pattern. -/
def setPattern (s : Screen) (pattern : Byte) (x y : Int) : Screen :=
  s.updateRow (line y) (· ||| mask s.edgeMode pattern x)

/-- Darkens the pixels of a pattern. -/
def unsetPattern (s : Screen) (pattern : Byte) (x y : Int) : Screen :=
  s.updateRow (line y) (· &&& ~~~ mask s.edgeMode pattern x)

/-- Toggles the pixels of a pattern. -/
def flipPattern (s : Screen) (pattern : Byte) (x y : Int) : Screen :=
  s.updateRow (line y) (· ^^^ mask s.edgeMode pattern x)

/-- Is a pixel of the pattern lit? Toggling the pattern then turns a pixel off. -/
def hits (s : Screen) (pattern : Byte) (x y : Int) : Bool :=
  s.row (line y) &&& mask s.edgeMode pattern x != 0

/-- The eight pixels from a column on. Beyond the right edge they are dark, or those from
column 0 on, by the edge mode. -/
def getPattern (s : Screen) (x y : Int) : Byte :=
  let row := s.row (line y)
  match s.edgeMode with
  | .clip => (row <<< column x).extractLsb' 56 8
  | .wrap => (row.rotateLeft (column x)).extractLsb' 56 8

/-! ### Single pixels -/

def setPixel (s : Screen) (x y : Int) : Screen := s.setPattern dot x y

def unsetPixel (s : Screen) (x y : Int) : Screen := s.unsetPattern dot x y

def flipPixel (s : Screen) (x y : Int) : Screen := s.flipPattern dot x y

def getPixel (s : Screen) (x y : Int) : Bool := s.hits dot x y

/-! ### The whole screen -/

def clear (s : Screen) : Screen := { s with rows := Vector.replicate 32 0, changed := true }

/-- Forgets that anything changed. -/
def settle (s : Screen) : Screen := { s with changed := false }

/-- Toggles a sprite, one pattern to a row, downwards from `(x, y)`. -/
def flipSprite (s : Screen) (x y : Int) : List Byte → Screen
  | [] => s
  | p :: rest => (s.flipPattern p x y).flipSprite x (y + 1) rest

/-- Is a lit pixel turned off while a sprite is toggled line by line? -/
def hitsSprite (s : Screen) (x y : Int) : List Byte → Bool
  | [] => false
  | p :: rest => s.hits p x y || (s.flipPattern p x y).hitsSprite x (y + 1) rest

/-! ### Which pixels a mask holds -/

theorem getMsbD_left (pattern : Byte) (i : Nat) :
    (pattern.setWidth 64 <<< 56 : Row).getMsbD i = pattern.getMsbD i := by
  simp only [BitVec.getMsbD, BitVec.getLsbD_shiftLeft, BitVec.getLsbD_setWidth]
  by_cases h : i < 8
  · have h1 : 64 - 1 - i - 56 = 8 - 1 - i := by omega
    have h2 : ¬ 64 - 1 - i < 56 := by omega
    simp only [h, h1, h2, show i < 64 by omega, show 64 - 1 - i < 64 by omega,
      show 8 - 1 - i < 64 by omega, decide_true, decide_false, Bool.not_false, Bool.true_and]
  · by_cases h64 : i < 64
    · simp [h, h64, show 64 - 1 - i < 56 by omega]
    · simp [h, h64]

/-- Clipped at column `x`, a pattern covers the columns from `x` on. -/
theorem getMsbD_mask_clip (pattern : Byte) (x : Int) (p : Nat) :
    (mask .clip pattern x).getMsbD p =
      (decide (p < 64) && decide (column x ≤ p) && pattern.getMsbD (p - column x)) := by
  simp only [mask, BitVec.getMsbD_ushiftRight, getMsbD_left]
  by_cases hx : p < column x
  · have hle : ¬ column x ≤ p := by omega
    simp only [hx, hle, decide_true, decide_false, Bool.not_true, Bool.and_false, Bool.false_and]
  · have hle : column x ≤ p := by omega
    simp only [hx, hle, decide_true, decide_false, Bool.not_false, Bool.true_and, Bool.and_true]

/-- Wrapped at column `x`, a pattern covers the columns from `x` on, counted modulo 64. -/
theorem getMsbD_mask_wrap (pattern : Byte) (x : Int) (p : Nat) :
    (mask .wrap pattern x).getMsbD p =
      (decide (p < 64) && pattern.getMsbD ((p + 64 - column x) % 64)) := by
  have hx := column_lt x
  simp only [mask]
  rw [BitVec.getMsbD_rotateRight]
  rw [Nat.mod_eq_of_lt hx]
  by_cases hp : p < column x
  · rw [if_pos hp, getMsbD_left, Nat.add_comm p 64, decide_eq_true (by omega : p < 64),
      Bool.true_and]
  · rw [if_neg hp, getMsbD_left]
    by_cases h64 : p < 64
    · have h : (p + 64 - column x) % 64 = p - column x := by omega
      simp [h, h64]
    · simp [h64]

end Screen

end Chip8
