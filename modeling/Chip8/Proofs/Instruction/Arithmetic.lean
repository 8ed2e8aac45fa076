import Chip8.Instruction.Encode
import Chip8.Proofs.Instruction.Component

/-!
# Arithmetic with a flag

What additions, subtractions and shifts leave in the registers, in numbers. The operands are read before
anything is written and the flag is written last, so the flag register keeps the flag even where it is
an operand or the target. The main statement is `arithmetic_with_flag`.
-/

namespace Chip8

open Instruction (assemble lowByte)

/-- The state `t` is the state `s` with a flag in `VF` and a result in `Vx`, unless `Vx` is `VF`. -/
structure State.Computed {ρ : Type} (s : State ρ) (x : Register) (result flag : Int) (t : State ρ) :
    Prop where
  flag : ((t.register .flag).toNat : Int) = flag
  result : x ≠ .flag → ((t.register x).toNat : Int) = result
  others : ∀ r, r ≠ x → r ≠ .flag → t.register r = s.register r
  rest : t = { s with registers := t.registers }

/-! ### Bytes as numbers -/

namespace Byte

variable (a b : Byte)

theorem toNat_add_int : ((a + b).toNat : Int) = ((a.toNat : Int) + b.toNat) % 256 := by
  rw [BitVec.toNat_add]
  omega

theorem toNat_sub_int : ((a - b).toNat : Int) = ((a.toNat : Int) - b.toNat) % 256 := by
  have ha := a.isLt
  have hb := b.isLt
  rw [BitVec.toNat_sub]
  omega

theorem toNat_shiftRight : ((a >>> 1).toNat : Int) = (a.toNat : Int) / 2 := by
  rw [BitVec.toNat_ushiftRight, Nat.shiftRight_eq_div_pow]
  omega

theorem toNat_shiftLeft : ((a <<< 1).toNat : Int) = 2 * (a.toNat : Int) % 256 := by
  rw [BitVec.toNat_shiftLeft, Nat.shiftLeft_eq]
  omega

theorem getLsbD_zero : a.getLsbD 0 = decide (a.toNat % 2 = 1) := by
  rw [BitVec.getLsbD, Nat.testBit_zero]

end Byte

/-! ### One operation -/

variable {ρ : Type}

theorem State.computed_withResult (s : State ρ) (x : Register) (value : Byte) (flag : Bool) :
    s.Computed x value.toNat (if flag then 1 else 0)
      { s with registers := s.withResult x (value, some flag) } where
  flag := by
    have h := (s.setRegister x value).register_setFlag .flag flag
    rw [if_pos rfl] at h
    have hf : { s with registers := s.withResult x (value, some flag) }.register .flag =
        if flag then 1 else 0 := h
    rw [hf]
    cases flag <;> rfl
  result := by
    intro hx
    have h := (s.setRegister x value).register_setFlag x flag
    rw [if_neg (Ne.symm hx), register_setRegister, if_pos rfl] at h
    exact congrArg (fun b : Byte => (b.toNat : Int)) h
  others := by
    intro r hx hf
    have h := (s.setRegister x value).register_setFlag r flag
    rw [if_neg (Ne.symm hf), register_setRegister, if_neg (Ne.symm hx)] at h
    exact h
  rest := rfl

variable [RandomSource ρ] {set : InstructionSet}

theorem computed_of_eval (hset : set ≠ .idle) (s : State ρ) (x y : Register) (op : Operation)
    {value : Byte} {flag : Bool} {result carry : Int}
    (h : op.eval set (s.register x) (s.register y) = (value, some flag))
    (hresult : (value.toNat : Int) = result) (hflag : (if flag then 1 else 0) = carry) :
    ∃ t, (assemble 0x8 x (lowByte y op.nibble)).execute set s = .ok () t ∧
      s.Computed x result carry t := by
  have hd : Instruction.decode? (assemble 0x8 x (lowByte y op.nibble)) = some (.operate op x y) :=
    Instruction.decode?_encode (.operate op x y)
  refine ⟨_, Word.execute_of_decode? hset hd s, ?_⟩
  subst hresult hflag
  simp only [Instruction.effect, h]
  exact s.computed_withResult x value flag

omit [RandomSource ρ] in
theorem flag_eq {p q : Prop} [Decidable p] [Decidable q] (h : p ↔ q) :
    (if decide p = true then (1 : Int) else 0) = if q then 1 else 0 := by
  simp only [decide_eq_true_eq, h]

theorem computed_add (hset : set ≠ .idle) (s : State ρ) (x y : Register) :
    ∃ t, (assemble 0x8 x (lowByte y 0x4)).execute set s = .ok () t ∧
      s.Computed x (((s.register x).toNat + (s.register y).toNat) % 256)
        (if ((s.register x).toNat : Int) + (s.register y).toNat > 255 then 1 else 0) t :=
  computed_of_eval hset s x y .add rfl (Byte.toNat_add_int _ _) (flag_eq (by omega))

theorem computed_sub (hset : set ≠ .idle) (s : State ρ) (x y : Register) :
    ∃ t, (assemble 0x8 x (lowByte y 0x5)).execute set s = .ok () t ∧
      s.Computed x (((s.register x).toNat - (s.register y).toNat) % 256)
        (if ((s.register x).toNat : Int) ≥ (s.register y).toNat then 1 else 0) t :=
  computed_of_eval hset s x y .sub rfl (Byte.toNat_sub_int _ _)
    (flag_eq (BitVec.le_def.trans Int.ofNat_le.symm))

theorem computed_subFrom (hset : set ≠ .idle) (s : State ρ) (x y : Register) :
    ∃ t, (assemble 0x8 x (lowByte y 0x7)).execute set s = .ok () t ∧
      s.Computed x (((s.register y).toNat - (s.register x).toNat) % 256)
        (if ((s.register y).toNat : Int) ≥ (s.register x).toNat then 1 else 0) t :=
  computed_of_eval hset s x y .subFrom rfl (Byte.toNat_sub_int _ _)
    (flag_eq (BitVec.le_def.trans Int.ofNat_le.symm))

def State.shifted (s : State ρ) (set : InstructionSet) (x y : Register) : Byte :=
  if set = .legacy then s.register y else s.register x

theorem computed_shiftRight (hset : set ≠ .idle) (s : State ρ) (x y : Register) :
    ∃ t, (assemble 0x8 x (lowByte y 0x6)).execute set s = .ok () t ∧
      s.Computed x ((s.shifted set x y).toNat / 2) ((s.shifted set x y).toNat % 2) t := by
  refine computed_of_eval hset s x y .shiftRight rfl (Byte.toNat_shiftRight _) ?_
  have hbit := Byte.getLsbD_zero (s.shifted set x y)
  unfold State.shifted at hbit ⊢
  rw [hbit, flag_eq Iff.rfl]
  split <;> omega

theorem computed_shiftLeft (hset : set ≠ .idle) (s : State ρ) (x y : Register) :
    ∃ t, (assemble 0x8 x (lowByte y 0xE)).execute set s = .ok () t ∧
      s.Computed x (2 * (s.shifted set x y).toNat % 256)
        (if ((s.shifted set x y).toNat : Int) ≥ 128 then 1 else 0) t := by
  refine computed_of_eval hset s x y .shiftLeft rfl (Byte.toNat_shiftLeft _) ?_
  have hbit : (s.shifted set x y).msb = decide ((s.shifted set x y).toNat ≥ 128) :=
    BitVec.msb_eq_decide _
  unfold State.shifted at hbit ⊢
  rw [hbit]
  exact flag_eq (by omega)

theorem sub_undoes_add (hset : set ≠ .idle) (s : State ρ) {x y : Register} (hxy : x ≠ y)
    (hx : x ≠ .flag) (hy : y ≠ .flag) :
    ∃ t u, (assemble 0x8 x (lowByte y 0x4)).execute set s = .ok () t ∧
      (assemble 0x8 x (lowByte y 0x5)).execute set t = .ok () u ∧
      u.register x = s.register x ∧
      ((u.register .flag).toNat : Int) = 1 - (t.register .flag).toNat := by
  obtain ⟨t, ht, hadd⟩ := computed_add hset s x y
  obtain ⟨u, hu, hsub⟩ := computed_sub hset t x y
  have ha := (s.register x).isLt
  have hb := (s.register y).isLt
  have hsum := hadd.result hx
  have hcarry := hadd.flag
  have hdifference := hsub.result hx
  have hborrow := hsub.flag
  rw [hadd.others y (Ne.symm hxy) hy] at hdifference hborrow
  refine ⟨t, u, ht, hu, ?_, ?_⟩
  · apply BitVec.eq_of_toNat_eq
    omega
  · rw [hborrow, hcarry, hsum]
    split <;> split <;> omega

/-! ### The main statement -/

/-- What the words 8XY4 to 8XY7 and 8XYE leave in any state, whatever registers they name. In particular
8XY5 undoes 8XY4 on two registers other than `VF`. -/
theorem arithmetic_with_flag (hset : set ≠ .idle) (s : State ρ) (x y : Register) :
    let a : Int := (s.register x).toNat
    let b : Int := (s.register y).toNat
    let v : Int := if set = .legacy then b else a
    (∃ t, (assemble 0x8 x (lowByte y 0x4)).execute set s = .ok () t ∧
      s.Computed x ((a + b) % 256) (if a + b > 255 then 1 else 0) t) ∧
    (∃ t, (assemble 0x8 x (lowByte y 0x5)).execute set s = .ok () t ∧
      s.Computed x ((a - b) % 256) (if a ≥ b then 1 else 0) t) ∧
    (∃ t, (assemble 0x8 x (lowByte y 0x7)).execute set s = .ok () t ∧
      s.Computed x ((b - a) % 256) (if b ≥ a then 1 else 0) t) ∧
    (∃ t, (assemble 0x8 x (lowByte y 0x6)).execute set s = .ok () t ∧
      s.Computed x (v / 2) (v % 2) t) ∧
    (∃ t, (assemble 0x8 x (lowByte y 0xE)).execute set s = .ok () t ∧
      s.Computed x (2 * v % 256) (if v ≥ 128 then 1 else 0) t) ∧
    (x ≠ y → x ≠ .flag → y ≠ .flag →
      ∃ t u, (assemble 0x8 x (lowByte y 0x4)).execute set s = .ok () t ∧
        (assemble 0x8 x (lowByte y 0x5)).execute set t = .ok () u ∧
        u.register x = s.register x ∧
        ((u.register .flag).toNat : Int) = 1 - (t.register .flag).toNat) := by
  intro a b v
  have hv : v = (s.shifted set x y).toNat := by
    unfold State.shifted
    split
    · exact if_pos ‹_›
    · exact if_neg ‹_›
  rw [hv]
  exact ⟨computed_add hset s x y, computed_sub hset s x y, computed_subFrom hset s x y,
    computed_shiftRight hset s x y, computed_shiftLeft hset s x y, sub_undoes_add hset s⟩

/-- The sum of 200 and 100 overflows, the legacy shift halves the second of them, and the subtraction leads
back to the first. -/
theorem arithmetic_with_flag_overflow :
    let s : State Cycle :=
      ((State.powerOn ⟨[], by decide⟩ .clip ⟨#[], 0⟩).setRegister 3 200).setRegister 7 100
    InstructionSet.legacy ≠ .idle ∧
    (∃ t, Word.execute .legacy 0x8374#16 s = .ok () t ∧ s.Computed 3 44 1 t) ∧
    (∃ t, Word.execute .legacy 0x8376#16 s = .ok () t ∧ s.Computed 3 50 0 t) ∧
    ∃ t u, Word.execute .legacy 0x8374#16 s = .ok () t ∧ Word.execute .legacy 0x8375#16 t = .ok () u ∧
      u.register 3 = 200 ∧ ((u.register .flag).toNat : Int) = 1 - (t.register .flag).toNat := by
  intro s
  have hset : InstructionSet.legacy ≠ .idle := by decide
  have h3 : s.register 3 = 200 := by decide
  have h7 : s.register 7 = 100 := by decide
  obtain ⟨hadd, -, -, hshift, -, hundo⟩ := arithmetic_with_flag hset s 3 7
  simp only [h3, h7, if_true] at hadd hshift
  exact ⟨hset, hadd, hshift, hundo (by decide) (by decide) (by decide)⟩

end Chip8
