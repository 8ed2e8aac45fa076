/-!
# Numerals

Numbers as digit strings in any base up to sixteen. `digits` gives the shortest digit
string and `fixedDigits` the last `width` digits; `Style.write` writes an integer with a
sign, a mark such as `0x` and zeros up to a least total width, and `fixed` writes exactly
`width` digits. The main statements are `fixedDigits_length` and `fixedDigits_lt`.
-/

namespace Chip8.Numeral

/-! ### Digit strings -/

/-- The digits of `n`, most significant first. Zero has the single digit `0`. -/
def digits (base n : Nat) : List Nat :=
  if 1 < base ∧ base ≤ n then digits base (n / base) ++ [n % base] else [n]
termination_by n
decreasing_by exact Nat.div_lt_self (by omega) (by omega)

/-- The last `width` digits of `n`, most significant first. -/
def fixedDigits (base : Nat) : Nat → Nat → List Nat
  | 0, _ => []
  | width + 1, n => fixedDigits base width (n / base) ++ [n % base]

theorem fixedDigits_length (base width n : Nat) : (fixedDigits base width n).length = width := by
  induction width generalizing n with
  | zero => rfl
  | succ width ih => simp [fixedDigits, ih]

theorem fixedDigits_lt {base : Nat} (hb : 0 < base) (width n : Nat) :
    ∀ d ∈ fixedDigits base width n, d < base := by
  induction width generalizing n with
  | zero => simp [fixedDigits]
  | succ width ih =>
    intro d hd
    rcases List.mem_append.1 hd with hd | hd
    · exact ih (n / base) d hd
    · rw [List.mem_singleton.1 hd]
      exact Nat.mod_lt n hb

/-! ### Characters -/

/-- Which letters stand for the digits from ten on. -/
inductive Letters where
  | lower
  | upper
  deriving DecidableEq, Repr

/-- The character of a digit below sixteen. -/
def digitChar (letters : Letters) (d : Nat) : Char :=
  if d < 10 then Char.ofNat (48 + d)
  else match letters with
    | .lower => Char.ofNat (87 + d)
    | .upper => Char.ofNat (55 + d)

/-- Exactly `width` digits: the low end of `n`, padded with zeros. -/
def fixed (base : Nat) (letters : Letters) (width n : Nat) : String :=
  String.ofList ((fixedDigits base width n).map (digitChar letters))

theorem toList_fixed (base : Nat) (letters : Letters) (width n : Nat) :
    (fixed base letters width n).toList = (fixedDigits base width n).map (digitChar letters) := by
  rw [fixed, String.toList_ofList]

/-- Exactly `width` hexadecimal digits with capital letters. -/
def upperHex (width n : Nat) : String := fixed 16 .upper width n

/-- Exactly `width` hexadecimal digits with small letters. -/
def lowerHex (width n : Nat) : String := fixed 16 .lower width n

/-! ### Signed numbers -/

/-- How an integer is written: base, letters, a mark between sign and digits, and the least
width of the whole, sign and mark included, which zeros after the mark fill up. -/
structure Style where
  base : Nat
  letters : Letters := .lower
  mark : String := ""
  width : Nat := 0
  deriving Repr

/-- Hexadecimal with small letters and a least width. -/
def plainHex (width : Nat) : Style := { base := 16, width }

/-- The same with the mark `0x`, which counts for the width. -/
def markedHex (width : Nat) : Style := { base := 16, mark := "0x", width }

/-- The text of an integer: sign, mark, filling zeros, digits. -/
def Style.write (style : Style) (v : Int) : String :=
  let head := (if v < 0 then "-" else "") ++ style.mark
  let body := (digits style.base v.natAbs).map (digitChar style.letters)
  head ++ String.ofList
    (List.replicate (style.width - head.length - body.length) '0' ++ body)

end Chip8.Numeral
