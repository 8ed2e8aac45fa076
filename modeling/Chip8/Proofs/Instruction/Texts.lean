import Chip8.Instruction.Encode
import Chip8.Proofs.Instruction.Effect
import Chip8.Proofs.Instruction.Lines
import Chip8.Proofs.Instruction.Table
import Chip8.Random

/-!
# Words of one text

A word is printed without the nibble that families 5 and 9 ignore, and nothing else is lost
(`Word.disassemble_eq_iff`). The main statement is `text_determines_effect`: words have the same text
just when they are equal but for that nibble, and then they do the same in every state.
-/

namespace Chip8

open Assembly

/-! ### Words without the nibble that does not count -/

namespace Instruction

theorem canonical_of_family {w : Word} (h : w.family = 0x5 ∨ w.family = 0x9) :
    canonical w = (w >>> 4) <<< 4 := by
  have hx : (BitVec.ofFin w.x : BitVec 4) = w.extractLsb' 8 4 := rfl
  have hy : (BitVec.ofFin w.y : BitVec 4) = w.extractLsb' 4 4 := rfl
  rw [canonical, if_pos h, assemble, lowByte, hx, hy]
  apply BitVec.eq_of_getLsbD_eq
  intro i hi
  simp only [Word.family, BitVec.getLsbD_append, BitVec.getLsbD_extractLsb', BitVec.getLsbD_shiftLeft,
    BitVec.getLsbD_ushiftRight]
  grind

theorem family_canonical (w : Word) : (canonical w).family = w.family := by
  unfold canonical
  split
  · exact family_assemble _ _ _
  · rfl

theorem canonical_eq_iff {v w : Word} :
    canonical v = canonical w ↔
      v = w ∨ (v.family = 0x5 ∧ w.family = 0x5 ∨ v.family = 0x9 ∧ w.family = 0x9) ∧
        v.toNat / 16 = w.toNat / 16 := by
  have hhigh : (v >>> 4) <<< 4 = (w >>> 4) <<< 4 ↔ v.toNat / 16 = w.toNat / 16 := by
    have hv := v.isLt
    have hw := w.isLt
    rw [← BitVec.toNat_inj]
    simp only [BitVec.toNat_shiftLeft, BitVec.toNat_ushiftRight, Nat.shiftLeft_eq,
      Nat.shiftRight_eq_div_pow]
    omega
  constructor
  · intro h
    have hf : v.family = w.family := by rw [← family_canonical v, h, family_canonical]
    by_cases hw : w.family = 0x5 ∨ w.family = 0x9
    · have hv : v.family = 0x5 ∨ v.family = 0x9 := by rwa [hf]
      rw [canonical_of_family hv, canonical_of_family hw, hhigh] at h
      exact .inr ⟨by simpa [hf] using hw, h⟩
    · have hv : ¬ (v.family = 0x5 ∨ v.family = 0x9) := by rwa [hf]
      rw [canonical, canonical, if_neg hv, if_neg hw] at h
      exact .inl h
  · rintro (rfl | ⟨hf, h⟩)
    · rfl
    · rw [canonical_of_family (hf.imp And.left And.left), canonical_of_family (hf.imp And.right And.right)]
      exact hhigh.2 h

theorem canonical_of_decode?_eq_none {w : Word} (h : decode? w = none) : canonical w = w := by
  refine if_neg ?_
  rintro (hf | hf)
  · rw [decode?_complete (.equals hf)] at h
    cases h
  · rw [decode?_complete (.differs hf)] at h
    cases h

theorem decode?_canonical (w : Word) : decode? (canonical w) = decode? w := by
  cases h : decode? w with
  | none => rw [canonical_of_decode?_eq_none h, h]
  | some i => rw [← encode_of_decode? h, decode?_encode]

/-- The nibble that does not count is all that the decoder forgets about an assigned word. -/
theorem canonical_eq_iff_decode? {v w : Word} :
    canonical v = canonical w ↔ decode? v = decode? w ∧ (decode? w = none → v = w) := by
  constructor
  · intro h
    have hd : decode? v = decode? w := by rw [← decode?_canonical v, h, decode?_canonical]
    refine ⟨hd, fun hw => ?_⟩
    rwa [canonical_of_decode?_eq_none hw, canonical_of_decode?_eq_none (hd.trans hw)] at h
  · rintro ⟨hd, hnone⟩
    cases hw : decode? w with
    | none => rw [hnone hw]
    | some i => rw [← encode_of_decode? hw, ← encode_of_decode? (hd.trans hw)]

end Instruction

namespace Word

/-! ### Lines of words -/

/-- The line of a word, which is data if the word stands for no instruction. -/
def line (w : Word) : Line :=
  match Instruction.decode? w with
  | some i => i.line
  | none => { mnemonic := "DW", operands := [.constant 4 w] }

theorem text_line (w : Word) : w.line.text = w.disassemble := by
  unfold line disassemble
  cases Instruction.decode? w with
  | none => simp [Line.text, Assembly.line, Operand.text]
  | some i => exact i.text_line

theorem instruction?_line (w : Word) : w.line.instruction? = Instruction.decode? w := by
  unfold line
  cases Instruction.decode? w with
  | none => rfl
  | some i => exact i.instruction?_line

theorem line_of_decode?_eq_none {w : Word} (h : Instruction.decode? w = none) :
    w.line.operands = [.constant 4 w] := by
  simp only [line, h]

/-- A text shows the word but for the nibble that does not count. -/
theorem disassemble_eq_iff {v w : Word} :
    v.disassemble = w.disassemble ↔ Instruction.canonical v = Instruction.canonical w := by
  rw [Instruction.canonical_eq_iff_decode?]
  constructor
  · intro h
    rw [← text_line, ← text_line] at h
    have hline := Line.text_inj h
    have hd : Instruction.decode? v = Instruction.decode? w := by
      rw [← instruction?_line, ← instruction?_line, hline]
    refine ⟨hd, fun hw => ?_⟩
    have hoperands := congrArg Line.operands hline
    rw [line_of_decode?_eq_none hw, line_of_decode?_eq_none (hd.trans hw)] at hoperands
    cases hoperands
    rfl
  · rintro ⟨hd, hnone⟩
    cases hw : Instruction.decode? w with
    | none => rw [hnone hw]
    | some i => simp only [disassemble, hd, hw]

/-! ### Words of one text -/

variable {ρ : Type} [RandomSource ρ]

theorem execute_eq_of_disassemble_eq {v w : Word} (h : v.disassemble = w.disassemble)
    (set : InstructionSet) : v.execute (ρ := ρ) set = w.execute set := by
  obtain ⟨hd, hnone⟩ := Instruction.canonical_eq_iff_decode?.1 (disassemble_eq_iff.1 h)
  cases hw : Instruction.decode? w with
  | none => rw [hnone hw]
  | some i => simp only [execute, hd, hw]

/-- A word leaves a new state or meets a fault and leaves the state as it was. -/
theorem execute_cases (set : InstructionSet) (w : Word) (s : State ρ) :
    (∃ t, w.execute set s = .ok () t) ∨ ∃ f, w.execute set s = .error f s := by
  rw [execute_eq]
  cases w.fault? set s with
  | none => exact .inl ⟨_, rfl⟩
  | some f => exact .inr ⟨f, rfl⟩

end Word

/-- Words have the same text just when they are equal or differ only in the nibble that families 5 and
9 ignore, and words of the same text do the same in every state. -/
theorem text_determines_effect {ρ : Type} [RandomSource ρ] (v w : Word) :
    (v.disassemble = w.disassemble ↔
      v = w ∨ (v.family = 0x5 ∧ w.family = 0x5 ∨ v.family = 0x9 ∧ w.family = 0x9) ∧
        v.toNat / 16 = w.toNat / 16) ∧
    (v.disassemble = w.disassemble → ∀ (set : InstructionSet) (s : State ρ),
      (∃ t, v.execute set s = .ok () t ∧ w.execute set s = .ok () t) ∨
      ∃ f, v.execute set s = .error f s ∧ w.execute set s = .error f s) := by
  refine ⟨Word.disassemble_eq_iff.trans Instruction.canonical_eq_iff, fun h set s => ?_⟩
  rw [Word.execute_eq_of_disassemble_eq h]
  refine (w.execute_cases set s).imp ?_ ?_
  · rintro ⟨t, ht⟩
    exact ⟨t, ht, ht⟩
  · rintro ⟨f, hf⟩
    exact ⟨f, hf, hf⟩

/-- The two words compare `VA` and `VB`. -/
theorem text_determines_effect_equals :
    Word.disassemble 0x5AB0#16 = Word.disassemble 0x5ABF#16 ∧
    ∀ (set : InstructionSet) (s : State Cycle),
      (∃ t, Word.execute set 0x5AB0#16 s = .ok () t ∧ Word.execute set 0x5ABF#16 s = .ok () t) ∨
      ∃ f, Word.execute set 0x5AB0#16 s = .error f s ∧ Word.execute set 0x5ABF#16 s = .error f s := by
  obtain ⟨hiff, heffect⟩ := text_determines_effect (ρ := Cycle) 0x5AB0#16 0x5ABF#16
  have h := hiff.2 (.inr (by decide))
  exact ⟨h, heffect h⟩

end Chip8
