import Chip8.UsageError

/-!
# Bytes, instruction words and registers

An instruction word has sixteen bits: a family nibble, the register selectors `x` and `y`, and
the constants `n`, `nn` and `nnn` of one, two and three nibbles. Integers from outside enter
through `Word.ofInt?` and `Register.ofInt?`, which refuse what does not fit, or through
`Byte.ofInt`, which keeps the low eight bits.
-/

namespace Chip8

abbrev Byte := BitVec 8

/-- The low eight bits of an integer, in two's complement. -/
def Byte.ofInt (v : Int) : Byte := BitVec.ofInt 8 v

/-- One of sixteen, if the integer is small enough. -/
def nibbleOfInt? (v : Int) : Option (Fin 16) :=
  if h : 0 ≤ v ∧ v ≤ 15 then some ⟨v.toNat, by omega⟩ else none

theorem nibbleOfInt?_eq_some_iff {v : Int} {n : Fin 16} : nibbleOfInt? v = some n ↔ v = n.val := by
  have hn := n.isLt
  unfold nibbleOfInt?
  split
  · rw [Option.some.injEq]
    constructor
    · rintro rfl
      exact (Int.toNat_of_nonneg (by omega)).symm
    · rintro rfl
      rfl
  · constructor
    · intro h
      cases h
    · intro h
      omega

/-! ### Registers -/

/-- One of the sixteen registers `V0` to `VF`. -/
abbrev Register := Fin 16

namespace Register

/-- `V0`, which offsets jumps. -/
def first : Register := 0

/-- `VF`, which receives carries, borrows and collisions. -/
def flag : Register := 15

/-- The register of a number from 0 to 15. -/
def ofInt? (index : Int) : Except UsageError Register :=
  match nibbleOfInt? index with
  | some r => .ok r
  | none => .error (.registerOutOfRange index)

/-- `V` and one hexadecimal digit. -/
def text (r : Register) : String := "V" ++ Numeral.upperHex 1 r.val

end Register

/-! ### Instruction words -/

abbrev Word := BitVec 16

namespace Word

/-- The word of a number from 0 to 0xFFFF. -/
def ofInt? (v : Int) : Except UsageError Word :=
  if 0 ≤ v ∧ v ≤ 0xFFFF then .ok (BitVec.ofNat 16 v.toNat) else .error (.wordOutOfRange v)

/-- The word of two bytes, the high one first. -/
def ofBytes (high low : Byte) : Word := high ++ low

/-- Bits 12 to 15. -/
def family (w : Word) : BitVec 4 := w.extractLsb' 12 4

/-- Bits 8 to 11, a register. -/
def x (w : Word) : Register := (w.extractLsb' 8 4).toFin

/-- Bits 4 to 7, a register. -/
def y (w : Word) : Register := (w.extractLsb' 4 4).toFin

/-- The low nibble. -/
def n (w : Word) : BitVec 4 := w.setWidth 4

/-- The low byte. -/
def nn (w : Word) : Byte := w.setWidth 8

/-- The low twelve bits. -/
def nnn (w : Word) : BitVec 12 := w.setWidth 12

/-- Four hexadecimal digits. -/
def text (w : Word) : String := Numeral.upperHex 4 w.toNat

theorem toNat_ofBytes (high low : Byte) :
    (ofBytes high low).toNat = 256 * high.toNat + low.toNat := by
  have h : low.toNat < 2 ^ 8 := low.isLt
  rw [ofBytes, BitVec.toNat_append, ← Nat.shiftLeft_add_eq_or_of_lt h, Nat.shiftLeft_eq]
  omega

end Word

/-! ### Pairs of unbounded integers -/

/-- Bitwise or of two integers, each an endless string of bits in two's complement. -/
def bitOr : Int → Int → Int
  | .ofNat a, .ofNat b => .ofNat (a ||| b)
  | .ofNat a, .negSucc b => .negSucc (b - (b &&& a))
  | .negSucc a, .ofNat b => .negSucc (a - (a &&& b))
  | .negSucc a, .negSucc b => .negSucc (a &&& b)

/-- The word of two integers taken as high and low byte. Neither is cut to eight bits, so the
result may be no word at all. -/
def Word.ofPair? (high low : Int) : Except UsageError Word :=
  Word.ofInt? (bitOr (high * 256) low)

theorem bitOr_bytes (high low : Byte) :
    bitOr (high.toNat * 256) low.toNat = ((Word.ofBytes high low).toNat : Int) := by
  have h : low.toNat < 2 ^ 8 := low.isLt
  rw [Word.ofBytes, BitVec.toNat_append, Nat.shiftLeft_eq]
  rfl

/-- Two bytes make the word that they are the halves of. -/
theorem Word.ofPair?_bytes (high low : Byte) :
    Word.ofPair? high.toNat low.toNat = .ok (Word.ofBytes high low) := by
  have h := (Word.ofBytes high low).isLt
  rw [Word.ofPair?, bitOr_bytes, Word.ofInt?, if_pos (by omega)]
  simp

end Chip8
