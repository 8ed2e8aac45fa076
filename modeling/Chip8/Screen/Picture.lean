import Chip8.Screen

/-!
# Pictures of a screen

The ways in which a host reads a whole screen: the list of its pixels, lines of text made of
two given pieces, and a short description. A `View` gives the same readings and no way to
alter the screen. The main statements are `pixels_length` and `render_length`.
-/

namespace Chip8

namespace Screen

/-- Is the pixel lit that lies `x` columns from the left of row `y`? -/
def lit (s : Screen) (x : Nat) (y : Fin 32) : Bool := (s.row y >>> (63 - x)) &&& 1 == 1

/-- Every pixel with its column and row, row after row from the top, each from the left. -/
def pixels (s : Screen) : List (Nat × Nat × Bool) :=
  (List.finRange 32).flatMap fun y => (List.range 64).map fun x => (x, y.val, s.lit x y)

/-- Each row as text: a piece for every pixel, from the left. -/
def render (s : Screen) (on off : String) : List String :=
  s.rows.toList.map fun row : Row =>
    String.join ((List.range 64).map fun x => if (row >>> (63 - x)) &&& 1 != 0 then on else off)

/-- The picture that hosts show unless they choose other pieces. -/
def picture (s : Screen) : List String := s.render "#" "."

/-- Sixteen hexadecimal digits for each row. -/
def rowTexts (s : Screen) : List String :=
  s.rows.toList.map fun row => Numeral.lowerHex 16 row.toNat

/-- The rows that are not dark, each with its number. -/
def litRows (s : Screen) : List (Nat × String) :=
  (s.rowTexts.zipIdx.filter fun (text, _) => text.any (· != '0')).map fun (text, y) => (y, text)

/-- The spelling of truth values in descriptions. -/
def flagText (b : Bool) : String := if b then "True" else "False"

/-- Edge mode and changed flag in one line. -/
def description (s : Screen) : String :=
  "Screen(edge_mode=" ++ s.edgeMode.name ++ ", changed=" ++ flagText s.changed ++ ")"

theorem pixels_length (s : Screen) : s.pixels.length = 2048 := by
  simp only [pixels, List.length_flatMap, List.length_map, List.length_range]
  rfl

theorem render_length (s : Screen) (on off : String) : (s.render on off).length = 32 := by
  simp [render]

/-! ### Views -/

/-- A window onto a screen that only reads. -/
structure View where
  source : Screen

def view (s : Screen) : View := ⟨s⟩

namespace View

def edgeMode (v : View) : EdgeMode := v.source.edgeMode

def rows (v : View) : Vector Row 32 := v.source.rows

def isChanged (v : View) : Bool := v.source.changed

def getPixel (v : View) (x y : Int) : Bool := v.source.getPixel x y

def getPattern (v : View) (x y : Int) : Byte := v.source.getPattern x y

def pixels (v : View) : List (Nat × Nat × Bool) := v.source.pixels

def render (v : View) (on off : String) : List String := v.source.render on off

def rowTexts (v : View) : List String := v.source.rowTexts

def litRows (v : View) : List (Nat × String) := v.source.litRows

def description (v : View) : String := "ScreenView(" ++ v.source.description ++ ")"

end View

end Screen

end Chip8
