import Chip8.Proofs.Screen.Redrawing
import Chip8.State.Dump
import Mathlib.Data.List.Basic

/-!
# Readings of a screen

A host reads a screen pixel by pixel, from the list of its pixels, from lines of text, or from the page of a
state. All readings show the bits of the rows, column 0 in the highest, and from each of them that shows the
whole screen the rows can be told. The main statement is `readings_agree`.
-/

namespace Chip8

/-! ### Binary digits -/

namespace Numeral

theorem getElem?_fixedDigits {base width i : Nat} (n : Nat) (h : i < width) :
    (fixedDigits base width n)[i]? = some (n / base ^ (width - 1 - i) % base) := by
  induction width generalizing n with
  | zero => omega
  | succ width ih =>
    have hlength := fixedDigits_length base width (n / base)
    rw [fixedDigits]
    by_cases hi : i < width
    · have hplace : width + 1 - 1 - i = width - 1 - i + 1 := by omega
      rw [List.getElem?_append_left (by omega), ih (n / base) hi, Nat.div_div_eq_div_mul, hplace,
        Nat.pow_succ']
    · obtain rfl : i = width := by omega
      have hplace : i + 1 - 1 - i = 0 := by omega
      rw [List.getElem?_append_right (by omega), hlength, Nat.sub_self, hplace, Nat.pow_zero, Nat.div_one]
      rfl

/-- A binary numeral shows the bits of the number, the highest first. -/
theorem getElem?_toList_fixed_two {width i : Nat} (letters : Letters) (n : Nat) (h : i < width) :
    (fixed 2 letters width n).toList[i]? = some (if n.testBit (width - 1 - i) then '1' else '0') := by
  rw [toList_fixed, List.getElem?_map, getElem?_fixedDigits n h, Option.map_some,
    Nat.testBit_eq_decide_div_mod_eq]
  rcases Nat.mod_two_eq_zero_or_one (n / 2 ^ (width - 1 - i)) with hbit | hbit
  · rw [hbit]
    cases letters <;> rfl
  · rw [hbit]
    cases letters <;> rfl

end Numeral

/-! ### The last lines of a text -/

/-- The lines of a text but for all that stand before the last ones. -/
def lastLines (count : Nat) (text : String) : List (List Char) :=
  let lines := text.toList.splitOn '\n'
  lines.drop (lines.length - count)

theorem splitOn_intercalate_append {α : Type} [BEq α] [LawfulBEq α] {sep : α} {back : List (List α)}
    (hback : ∀ l ∈ back, sep ∉ l) (hne : back ≠ []) (front : List (List α)) :
    ∃ head, ([sep].intercalate (front ++ back)).splitOn sep = head ++ back := by
  induction front with
  | nil => exact ⟨[], List.splitOn_intercalate sep hback hne⟩
  | cons f rest ih =>
    obtain ⟨head, hhead⟩ := ih
    have hrest : rest ++ back ≠ [] := List.append_ne_nil_of_right_ne_nil rest hne
    have hsplit := List.splitOnP_append_cons (p := (· == sep)) f ([sep].intercalate (rest ++ back)) BEq.rfl
    refine ⟨f.splitOn sep ++ head, ?_⟩
    rw [List.cons_append, List.intercalate_cons_of_ne_nil hrest, List.append_assoc, List.singleton_append,
      List.append_assoc, ← hhead]
    exact hsplit

namespace State

theorem length_rowBits (row : Row) : (rowBits row).toList.length = 64 := by
  rw [rowBits, Numeral.toList_fixed, List.length_map, Numeral.fixedDigits_length]

theorem newline_notMem_rowBits (row : Row) : '\n' ∉ (rowBits row).toList := by
  rw [rowBits, Numeral.toList_fixed, List.mem_map]
  rintro ⟨d, hd, hnewline⟩
  have hlt := Numeral.fixedDigits_lt (by decide) 64 row.toNat d hd
  have hall : ∀ d < 2, Numeral.digitChar .lower d ≠ '\n' := by decide
  exact hall d hlt hnewline

/-- The rows of the screen are the last 32 lines of a dump, whatever stands before them. -/
theorem lastLines_dump {ρ : Type} (s : State ρ) :
    lastLines 32 s.dump = s.screen.rows.toList.map fun row => (rowBits row).toList := by
  generalize hrows : (s.screen.rows.toList.map fun row => (rowBits row).toList) = rows
  have hlength : rows.length = 32 := by simp [← hrows]
  have hnewline : ∀ l ∈ rows, '\n' ∉ l := by
    intro l hl
    rw [← hrows] at hl
    obtain ⟨row, -, rfl⟩ := List.mem_map.1 hl
    exact newline_notMem_rowBits row
  have hne : rows ≠ [] := List.ne_nil_of_length_pos (by omega)
  have hlines : ∃ front, s.dumpLines.map String.toList = front ++ rows := by
    rw [← hrows, dumpLines, List.map_append, List.map_map]
    exact ⟨_, rfl⟩
  obtain ⟨front, hfront⟩ := hlines
  have hdump : s.dump.toList = ['\n'].intercalate (front ++ rows) := by
    rw [dump, String.toList_intercalate, hfront]
    rfl
  obtain ⟨head, hhead⟩ := splitOn_intercalate_append hnewline hne front
  have hdrop : (head ++ rows).length - 32 = head.length := by
    rw [List.length_append]
    omega
  rw [lastLines, hdump, hhead, hdrop, List.drop_left]

end State

namespace Screen

/-! ### One row, one line -/

/-- The bit of a row that belongs to a column. -/
def bit (s : Screen) (px : Fin 64) (py : Fin 32) : Bool := (s.row py).toNat.testBit (63 - px)

theorem lit_eq_bit (s : Screen) (px : Fin 64) (py : Fin 32) : s.lit px py = s.bit px py := by
  rw [lit, and_one_beq_one, BitVec.getLsbD_ushiftRight]
  rfl

theorem shifted_bne_zero (s : Screen) (px : Fin 64) (py : Fin 32) :
    ((s.row py >>> (63 - px.val)) &&& 1 != 0) = s.bit px py := by
  rw [and_one_bne_zero, BitVec.getLsbD_ushiftRight]
  rfl

theorem rows_of_bit {s t : Screen} (h : ∀ px py, s.bit px py = t.bit px py) : s.rows = t.rows :=
  rows_of_lit fun px py => by rw [lit_eq_bit, lit_eq_bit, h]

theorem drop_flatMap_of_length {α β : Type} {f : α → List β} {size : Nat}
    (h : ∀ a, (f a).length = size) (l : List α) (k : Nat) :
    (l.flatMap f).drop (size * k) = (l.drop k).flatMap f := by
  induction k generalizing l with
  | zero => rfl
  | succ k ih =>
    cases l with
    | nil => rw [List.drop_nil, List.flatMap_nil, List.drop_nil]
    | cons a rest =>
      have hskip : (f a ++ rest.flatMap f).drop size = rest.flatMap f := List.drop_left' (h a)
      rw [List.flatMap_cons, Nat.mul_succ, Nat.add_comm, ← List.drop_drop, hskip, ih, List.drop_succ_cons]

theorem getElem?_pixels (s : Screen) (px : Fin 64) (py : Fin 32) :
    s.pixels[64 * py.val + px.val]? = some (px.val, py.val, s.bit px py) := by
  have hlength : ∀ y : Fin 32, ((List.range 64).map fun x => (x, y.val, s.lit x y)).length = 64 := by
    intro y
    rw [List.length_map, List.length_range]
  have hrows : (List.finRange 32).drop py = py :: (List.finRange 32).drop (py + 1) := by
    rw [List.drop_eq_getElem_cons (by simp), List.getElem_finRange]
    rfl
  rw [← List.getElem?_drop, pixels, drop_flatMap_of_length hlength, hrows, List.flatMap_cons,
    List.getElem?_append_left (by simp), List.getElem?_map, List.getElem?_range px.isLt, Option.map_some,
    lit_eq_bit]

theorem getElem?_toList_rows (s : Screen) (py : Fin 32) : s.rows.toList[py.val]? = some (s.row py) := by
  simp [row]

/-- The pieces of one line of text. -/
def pieces (s : Screen) (on off : String) (py : Fin 32) : List String :=
  (List.range 64).map fun x => if (s.row py >>> (63 - x)) &&& 1 != 0 then on else off

theorem getElem?_render (s : Screen) (on off : String) (py : Fin 32) :
    (s.render on off)[py.val]? = some (String.join (s.pieces on off py)) := by
  rw [render, List.getElem?_map, getElem?_toList_rows, Option.map_some, pieces]

theorem getElem?_pieces (s : Screen) (on off : String) (px : Fin 64) (py : Fin 32) :
    (s.pieces on off py)[px.val]? = some (if s.bit px py then on else off) := by
  rw [pieces, List.getElem?_map, List.getElem?_range px.isLt, Option.map_some, shifted_bne_zero]

theorem getElem?_lastLines_dump {ρ : Type} (state : State ρ) (py : Fin 32) :
    (lastLines 32 state.dump)[py.val]? = some (State.rowBits (state.screen.row py)).toList := by
  rw [state.lastLines_dump, List.getElem?_map, getElem?_toList_rows, Option.map_some]

theorem getElem?_rowBits (s : Screen) (px : Fin 64) (py : Fin 32) :
    (State.rowBits (s.row py)).toList[px.val]? = some (if s.bit px py then '1' else '0') := by
  rw [State.rowBits, Numeral.getElem?_toList_fixed_two .lower _ px.isLt]
  rfl

/-! ### What is told by each reading -/

/-- Every reading of a pixel gives the bit of its row and column. -/
structure Readings (s : Screen) : Prop where
  pixel : ∀ (px : Fin 64) (py : Fin 32), s.getPixel px.val py.val = s.bit px py
  count : s.pixels.length = 2048
  triple : ∀ (px : Fin 64) (py : Fin 32),
    s.pixels[64 * py.val + px.val]? = some (px.val, py.val, s.bit px py)
  dump : ∀ {ρ : Type} (state : State ρ), state.screen = s → (lastLines 32 state.dump).length = 32 ∧
    ∀ py : Fin 32, ∃ digits, (lastLines 32 state.dump)[py.val]? = some digits ∧ digits.length = 64 ∧
      ∀ px : Fin 64, digits[px.val]? = some (if s.bit px py then '1' else '0')
  render : ∀ on off : String, (s.render on off).length = 32 ∧
    ∀ py : Fin 32, ∃ pieces : List String, (s.render on off)[py.val]? = some (String.join pieces) ∧
      pieces.length = 64 ∧ ∀ px : Fin 64, pieces[px.val]? = some (if s.bit px py then on else off)
  view : s.view.edgeMode = s.edgeMode ∧ s.view.isChanged = s.changed ∧ s.view.rows = s.rows ∧
    s.view.getPixel = s.getPixel ∧ s.view.getPattern = s.getPattern ∧ s.view.pixels = s.pixels ∧
    s.view.render = s.render

theorem readings (s : Screen) : s.Readings where
  pixel := fun px py => (s.getPixel_eq px py).trans (s.lit_eq_bit px py)
  count := s.pixels_length
  triple := s.getElem?_pixels
  dump := by
    rintro ρ state rfl
    refine ⟨by simp [state.lastLines_dump], fun py => ?_⟩
    exact ⟨_, getElem?_lastLines_dump state py, State.length_rowBits _,
      fun px => state.screen.getElem?_rowBits px py⟩
  render := by
    intro on off
    refine ⟨s.render_length on off, fun py => ?_⟩
    exact ⟨_, s.getElem?_render on off py, by simp [pieces], fun px => s.getElem?_pieces on off px py⟩
  view := ⟨rfl, rfl, rfl, rfl, rfl, rfl, rfl⟩

theorem rows_of_pixels {s t : Screen} (h : s.pixels = t.pixels) : s.rows = t.rows := by
  refine rows_of_bit fun px py => ?_
  have hs := s.getElem?_pixels px py
  rw [h, t.getElem?_pixels px py] at hs
  simpa using hs.symm

theorem ite_inj {α : Type} {a b : α} (hab : a ≠ b) {p q : Bool}
    (h : (if p then a else b) = if q then a else b) : p = q := by
  cases p <;> cases q
  · rfl
  · exact absurd h.symm hab
  · exact absurd h hab
  · rfl

/-- With single characters as pieces, a line of text has a character for each pixel. -/
theorem toList_join_pieces (s : Screen) (a b : Char) (py : Fin 32) :
    (String.join (s.pieces (String.singleton a) (String.singleton b) py)).toList =
      (List.range 64).map fun x => if (s.row py >>> (63 - x)) &&& 1 != 0 then a else b := by
  have hpiece : ∀ c : Bool, (if c then String.singleton a else String.singleton b).toList =
      [if c then a else b] := by
    intro c
    cases c <;> exact String.toList_singleton _
  rw [String.toList_join, pieces, List.flatMap_map, List.map_eq_flatMap]
  simp only [hpiece]

theorem rows_of_render {s t : Screen} {a b : Char} (hab : a ≠ b)
    (h : s.render (String.singleton a) (String.singleton b) =
      t.render (String.singleton a) (String.singleton b)) : s.rows = t.rows := by
  refine rows_of_bit fun px py => ?_
  have hline := s.getElem?_render (String.singleton a) (String.singleton b) py
  rw [h, getElem?_render] at hline
  have hchars := congrArg String.toList (Option.some.inj hline)
  rw [toList_join_pieces, toList_join_pieces] at hchars
  have hpixel := congrArg (·[px.val]?) hchars
  simp only [List.getElem?_map, List.getElem?_range px.isLt, Option.map_some, Option.some.injEq,
    shifted_bne_zero] at hpixel
  exact (ite_inj hab hpixel).symm

end Screen

theorem State.rows_of_dump {ρ : Type} {u v : State ρ} (h : u.dump = v.dump) :
    u.screen.rows = v.screen.rows := by
  refine Screen.rows_of_bit fun px py => ?_
  have hline := Screen.getElem?_lastLines_dump u py
  rw [h, Screen.getElem?_lastLines_dump] at hline
  have hpixel := congrArg (·[px.val]?) (Option.some.inj hline)
  simp only [Screen.getElem?_rowBits, Option.some.injEq] at hpixel
  exact (Screen.ite_inj (by decide) hpixel).symm

/-! ### The main statement -/

/-- Pixel by pixel, as a list, as text and as part of a dump a screen reads the same, and its rows can be told
from its list of pixels, from its lines of text made of two characters, and from a dump. -/
theorem readings_agree :
    (∀ s : Screen, s.Readings) ∧
    (∀ s t : Screen, s.pixels = t.pixels → s.rows = t.rows) ∧
    (∀ (s t : Screen) (a b : Char), a ≠ b →
      s.render (String.singleton a) (String.singleton b) =
        t.render (String.singleton a) (String.singleton b) → s.rows = t.rows) ∧
    ∀ {ρ : Type} (u v : State ρ), u.dump = v.dump → u.screen.rows = v.screen.rows :=
  ⟨Screen.readings, fun _ _ => Screen.rows_of_pixels, fun _ _ _ _ => Screen.rows_of_render,
    fun _ _ => State.rows_of_dump⟩

/-- Two pixels of row 2, lit at once or one after the other. -/
theorem readings_agree_pair :
    let s := (Screen.blank .clip).setPattern 0x81 5 2
    let t := ((Screen.blank .wrap).setPixel 12 34).setPixel (-59) 2
    let u := (Machine.started ⟨[], by decide⟩).state
    (s.pixels = t.pixels ∧ s.rows = t.rows) ∧
    ('#' ≠ '.' ∧ s.render (String.singleton '#') (String.singleton '.') =
      t.render (String.singleton '#') (String.singleton '.') ∧ s.rows = t.rows) ∧
    ({ u with screen := s }.dump = { u with screen := t }.dump ∧ s.rows = t.rows) ∧
    ∃ digits, (lastLines 32 { u with screen := s }.dump)[2]? = some digits ∧
      digits[5]? = some '1' ∧ digits[12]? = some '1' ∧ digits[58]? = some '0' := by
  intro s t u
  have hrows : s.rows = t.rows := by decide
  have hpixels : s.pixels = t.pixels := by
    simp only [Screen.pixels, Screen.lit_congr hrows]
  have hrender : s.render (String.singleton '#') (String.singleton '.') =
      t.render (String.singleton '#') (String.singleton '.') := by
    simp only [Screen.render, hrows]
  have hdump : { u with screen := s }.dump = { u with screen := t }.dump := by
    simp only [State.dump, State.dumpLines, hrows]
    rfl
  obtain ⟨hreadings, hofPixels, hofRender, hofDump⟩ := readings_agree
  obtain ⟨-, hlines⟩ := (hreadings s).dump { u with screen := s } rfl
  obtain ⟨digits, hdigits, -, hpixel⟩ := hlines 2
  have hmarks : '#' ≠ '.' := by decide
  refine ⟨⟨hpixels, hofPixels s t hpixels⟩, ⟨hmarks, hrender, hofRender s t '#' '.' hmarks hrender⟩,
    ⟨hdump, hofDump _ _ hdump⟩, digits, hdigits, ?_⟩
  exact ⟨(hpixel 5).trans (by decide), (hpixel 12).trans (by decide), (hpixel 58).trans (by decide)⟩

end Chip8
