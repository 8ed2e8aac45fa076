import Chip8.Text.Numeral
import Chip8.Word

/-!
# Bytes as hexadecimal text

A byte is written as two small hexadecimal digits, high half first. Reading accepts digits of
either case, in pairs, and nothing else. The main statement is `decode?_encode`: what is written
reads back.
-/

namespace Chip8.Hex

open Numeral

/-! ### Reading -/

/-- The value of a hexadecimal digit of either case. -/
def digit? (c : Char) : Option Nat :=
  if '0' ≤ c ∧ c ≤ '9' then some (c.toNat - 48)
  else if 'a' ≤ c ∧ c ≤ 'f' then some (c.toNat - 87)
  else if 'A' ≤ c ∧ c ≤ 'F' then some (c.toNat - 55)
  else none

/-- The bytes that pairs of digits stand for. A digit that stands alone is refused. -/
def decode? : List Char → Option (List Byte)
  | [] => some []
  | [_] => none
  | high :: low :: rest =>
    match digit? high, digit? low with
    | some h, some l => (decode? rest).map (BitVec.ofNat 8 (16 * h + l) :: ·)
    | _, _ => none

/-! ### Writing -/

def pair (b : Byte) : List Char :=
  [digitChar .lower (b.toNat / 16), digitChar .lower (b.toNat % 16)]

def encode (bytes : List Byte) : String := String.ofList (bytes.flatMap pair)

theorem digit?_digitChar (letters : Letters) {d : Nat} (h : d < 16) :
    digit? (digitChar letters d) = some d := by
  have all : ∀ d : Fin 16, digit? (digitChar letters d) = some d.val := by
    cases letters <;> decide
  exact all ⟨d, h⟩

theorem decode?_flatMap_pair (bytes : List Byte) : decode? (bytes.flatMap pair) = some bytes := by
  induction bytes with
  | nil => rfl
  | cons b rest ih =>
    have hb : b.toNat < 2 ^ 8 := b.isLt
    have hv : 16 * (b.toNat / 16) + b.toNat % 16 = b.toNat := by omega
    simp only [List.flatMap_cons, pair, List.cons_append, List.nil_append, decode?]
    rw [digit?_digitChar .lower (by omega), digit?_digitChar .lower (by omega)]
    simp only [ih, hv, BitVec.ofNat_toNat, Option.map_some, BitVec.setWidth_eq]

theorem decode?_encode (bytes : List Byte) : decode? (encode bytes).toList = some bytes := by
  rw [encode, String.toList_ofList, decode?_flatMap_pair]

end Chip8.Hex
