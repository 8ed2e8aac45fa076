import Chip8.Word
import Mathlib.Data.Int.Bitwise

/-!
# Bytes of integers

A byte keeps the low eight bits of an integer of any size and sign, and so its remainder by 256.
-/

namespace Chip8

namespace Byte

theorem getLsbD_ofInt (v : Int) (i : Nat) :
    (Byte.ofInt v).getLsbD i = (decide (i < 8) && v.testBit i) := by
  cases v with
  | ofNat a =>
    have ho : Byte.ofInt (.ofNat a) = BitVec.ofNat 8 a := BitVec.ofInt_natCast 8 a
    rw [ho, BitVec.getLsbD_ofNat]
    rfl
  | negSucc a =>
    have ho : Byte.ofInt (.negSucc a) = ~~~ BitVec.ofNat 8 a := BitVec.ofInt_negSucc_eq_not_ofNat
    rw [ho, BitVec.getLsbD_not, BitVec.getLsbD_ofNat]
    by_cases hi : i < 8
    · simp only [hi, decide_true, Bool.true_and]
      rfl
    · simp only [hi, decide_false, Bool.false_and]

theorem toNat_ofInt_and (v : Int) (mask : Byte) :
    ((Byte.ofInt v &&& mask).toNat : Int) = Int.land v mask.toNat := by
  -- the mask is not negative, so neither is what it leaves of the number
  obtain ⟨n, hn⟩ : ∃ n : Nat, Int.land v mask.toNat = n := by
    cases v <;> exact ⟨_, rfl⟩
  have hbits : ∀ i, n.testBit i = (v.testBit i && mask.getLsbD i) := by
    intro i
    have hland := Int.testBit_land v mask.toNat i
    rwa [hn] at hland
  have h : (Byte.ofInt v &&& mask).toNat = n := by
    apply Nat.eq_of_testBit_eq
    intro i
    have hlt : mask.getLsbD i = true → i < 8 := BitVec.lt_of_getLsbD
    rw [hbits, BitVec.testBit_toNat, BitVec.getLsbD_and, getLsbD_ofInt]
    cases hm : mask.getLsbD i with
    | false => simp only [Bool.and_false]
    | true => simp only [hlt hm, decide_true, Bool.true_and]
  rw [h, hn]

/-- A byte keeps of a number its remainder by 256. -/
theorem toNat_ofInt (v : Int) : ((Byte.ofInt v).toNat : Int) = v % 256 := by
  have hv := Int.emod_nonneg v (show (256 : Int) ≠ 0 by decide)
  simp only [Byte.ofInt, BitVec.toNat_ofInt]
  exact Int.toNat_of_nonneg hv

theorem ofInt_congr {v v' : Int} (h : v' % 256 = v % 256) : Byte.ofInt v' = Byte.ofInt v := by
  have hv := toNat_ofInt v
  have hv' := toNat_ofInt v'
  apply BitVec.eq_of_toNat_eq
  omega

end Byte

end Chip8
