import Chip8.Fault

/-!
# Addresses

An address has sixteen bits, although memory uses only the low twelve. Its arithmetic never
wraps: a sum or difference that leaves the range is a fault. The main statement is
`ofInt_eq_ok_iff`.
-/

namespace Chip8

/-- A number from 0 to 0xFFFF. -/
structure Address where
  val : Nat
  val_le : val ≤ 0xFFFF
  deriving DecidableEq, Repr

namespace Address

/-- The address of a number, or an overflow. -/
def ofInt (v : Int) : Except Fault Address :=
  if h : 0 ≤ v ∧ v ≤ 0xFFFF then .ok ⟨v.toNat, by omega⟩ else .error (.addressOverflow v)

/-- The address that lies `delta` bytes further on. -/
def offset (a : Address) (delta : Int) : Except Fault Address := ofInt (a.val + delta)

/-- The address that a jump or a load names in the low bits of its word. -/
def ofBits (target : BitVec 12) : Address := ⟨target.toNat, by have := target.isLt; omega⟩

/-- The address of a program's first byte. -/
def start : Address := ⟨programStart, by decide⟩

def zero : Address := ⟨0, by decide⟩

/-- At least three hexadecimal digits. -/
def text (a : Address) : String := (Numeral.plainHex 3).write a.val

theorem ext {a b : Address} (h : a.val = b.val) : a = b := by
  cases a
  cases b
  simp_all

theorem ofInt_eq_ok_iff {v : Int} {a : Address} : ofInt v = .ok a ↔ v = a.val := by
  have hle := a.val_le
  unfold ofInt
  split
  · constructor
    · intro h
      cases h
      simp only [Int.toNat_of_nonneg, *]
    · intro h
      subst h
      rfl
  · constructor
    · intro h
      cases h
    · intro h
      omega

end Address

end Chip8
