import Chip8.Instruction.Encode
import Chip8.Proofs.Instruction.Component
import Chip8.Proofs.Memory.Stores

/-!
# Blocks of registers and digits

The words FX55 and FX33 store a block of bytes at the index and FX65 loads one; all three count their last
byte in. What one of them stores another loads, also much later, as long as index and block are still the
same. A block that reaches beyond memory is refused as a whole. The main statement is `blocks_round_trip`.
-/

namespace Chip8

open Instruction (assemble)

/-! ### Storing and loading -/

variable {ρ : Type}

theorem State.getD_take_registers (s : State ρ) {j x : Register} (h : j ≤ x) :
    (s.registers.toList.take (x.val + 1)).getD j.val 0 = s.register j := by
  have hj : j.val < x.val + 1 := Nat.lt_succ_of_le h
  simp [State.register, hj]

/-- The bytes stand at the index of `s`, and nothing else has changed. -/
structure State.Stored (s : State ρ) (bytes : List Byte) (t : State ρ) : Prop where
  inside : ∀ j < bytes.length, t.memory.byteAt (s.index.val + j) = bytes.getD j 0
  outside : ∀ a, a < s.index.val ∨ s.index.val + bytes.length ≤ a →
    t.memory.byteAt a = s.memory.byteAt a
  rest : t = { s with memory := t.memory }

theorem State.stored_patch (s : State ρ) {bytes : List Byte}
    (h : s.index.val + bytes.length ≤ memorySize) :
    s.Stored bytes { s with memory := s.memory.patch s.index.val bytes } where
  inside := fun _ hj => Memory.byteAt_patch_inside hj h
  outside := fun _ ha => Memory.byteAt_patch_outside ha
  rest := rfl

theorem State.Stored.register {s t : State ρ} {j x : Register}
    (h : s.Stored (s.registers.toList.take (x.val + 1)) t) (hj : j ≤ x) :
    t.memory.byteAt (s.index.val + j.val) = s.register j := by
  have hlength := Instruction.length_take_registers s x
  have hlt : j.val < x.val + 1 := Nat.lt_succ_of_le hj
  rw [h.inside j.val (by omega), s.getD_take_registers hj]

/-- Three bytes that hold the digits of a byte are its decimal numeral. -/
theorem State.Stored.numeral {s t : State ρ} {b : Byte} (h : s.Stored (Byte.decimalDigits b) t) :
    (∀ k < 3, (t.memory.byteAt (s.index.val + k)).toNat ≤ 9) ∧
    100 * (t.memory.byteAt s.index.val).toNat + 10 * (t.memory.byteAt (s.index.val + 1)).toNat +
      (t.memory.byteAt (s.index.val + 2)).toNat = b.toNat := by
  have hb := b.isLt
  have hdigit : ∀ j < 3, t.memory.byteAt (s.index.val + j) = (Byte.decimalDigits b).getD j 0 := h.inside
  rw [Byte.decimalDigits_eq] at hdigit
  have hhundreds : t.memory.byteAt (s.index.val + 0) = BitVec.ofNat 8 (b.toNat / 100) :=
    hdigit 0 (by omega)
  have htens : t.memory.byteAt (s.index.val + 1) = BitVec.ofNat 8 (b.toNat / 10 % 10) :=
    hdigit 1 (by omega)
  have hones : t.memory.byteAt (s.index.val + 2) = BitVec.ofNat 8 (b.toNat % 10) := hdigit 2 (by omega)
  constructor
  · intro k hk
    obtain rfl | rfl | rfl : k = 0 ∨ k = 1 ∨ k = 2 := by omega
    · rw [hhundreds, BitVec.toNat_ofNat]
      omega
    · rw [htens, BitVec.toNat_ofNat]
      omega
    · rw [hones, BitVec.toNat_ofNat]
      omega
  · rw [Nat.add_zero] at hhundreds
    simp only [hhundreds, htens, hones, BitVec.toNat_ofNat]
    omega

/-- The registers up to `Vx` hold the bytes at the index, and nothing else has changed. -/
structure State.Loaded (s : State ρ) (x : Register) (t : State ρ) : Prop where
  inside : ∀ r ≤ x, t.register r = s.memory.byteAt (s.index.val + r.val)
  above : ∀ r, x < r → t.register r = s.register r
  rest : t = { s with registers := t.registers }

theorem State.loaded_setRegisters (s : State ρ) (x : Register) :
    s.Loaded x { s with registers := (s.setRegisters (s.sprite (x.val + 1))).registers } where
  inside := by
    intro r hr
    have h := s.register_setRegisters (s.sprite (x.val + 1)) r
    rw [State.sprite, Memory.getElem?_block _ _ _ (Nat.lt_succ_of_le hr)] at h
    exact h
  above := by
    intro r hr
    have h := s.register_setRegisters (s.sprite (x.val + 1)) r
    have hlength : (s.sprite (x.val + 1)).length ≤ r.val := by
      rw [State.sprite, Memory.length_block]
      exact hr
    rw [List.getElem?_eq_none hlength] at h
    exact h
  rest := rfl

/-! ### The three words -/

/-- The word is refused because it reaches beyond memory, and the state stays as it is. -/
def Word.Refused [RandomSource ρ] (set : InstructionSet) (s : State ρ) (w : Word) : Prop :=
  ∃ f, w.execute set s = .error f s ∧ f.category = .memoryAccess

section

variable [RandomSource ρ] {set : InstructionSet} {s : State ρ} {i : Instruction} {length : Nat}

theorem Instruction.execute_of_fits (hset : set ≠ .idle)
    (hi : i.fault? s = Memory.outside? memorySize s.index.val length)
    (h : s.index.val + length ≤ 4096) : i.encode.execute set s = .ok () (i.effect set s) := by
  have hf := Memory.fits_memory_iff.2 h
  rw [Word.execute_of_decode? hset i.decode?_encode, hi, Memory.outside?_of_fits hf]

theorem Instruction.refused_of_lt (hset : set ≠ .idle)
    (hi : i.fault? s = Memory.outside? memorySize s.index.val length)
    (h : 4096 < s.index.val + length) : i.encode.Refused set s := by
  have hf := mt Memory.fits_memory_iff.1 (Nat.not_le.2 h)
  refine ⟨.outOfMemory s.index.val length, ?_, rfl⟩
  rw [Word.execute_of_decode? hset i.decode?_encode, hi, Memory.outside?_of_not_fits hf]

end

variable [RandomSource ρ] {set : InstructionSet}

theorem stored_registers (hset : set ≠ .idle) (s : State ρ) {x : Register}
    (h : s.index.val + x.val ≤ 4095) :
    ∃ t, (assemble 0xF x 0x55).execute set s = .ok () t ∧
      s.Stored (s.registers.toList.take (x.val + 1)) t := by
  refine ⟨_, Instruction.execute_of_fits (i := .store x) hset rfl (by omega), s.stored_patch ?_⟩
  rw [Instruction.length_take_registers]
  exact Nat.succ_le_succ h

theorem loaded_registers (hset : set ≠ .idle) (s : State ρ) {x : Register}
    (h : s.index.val + x.val ≤ 4095) :
    ∃ t, (assemble 0xF x 0x65).execute set s = .ok () t ∧ s.Loaded x t :=
  ⟨_, Instruction.execute_of_fits (i := .load x) hset rfl (by omega), s.loaded_setRegisters x⟩

theorem stored_digits (hset : set ≠ .idle) (s : State ρ) (x : Register)
    (h : s.index.val + 2 ≤ 4095) :
    ∃ t, (assemble 0xF x 0x33).execute set s = .ok () t ∧
      s.Stored (Byte.decimalDigits (s.register x)) t := by
  refine ⟨_, Instruction.execute_of_fits (i := .decimal x) hset rfl (by omega), s.stored_patch ?_⟩
  exact Nat.succ_le_succ h

/-- The block can be loaded from any state that still has the index and the bytes, and in part. -/
theorem State.Stored.loaded {s t u : State ρ} {x z : Register}
    (h : s.Stored (s.registers.toList.take (x.val + 1)) t) (hset : set ≠ .idle)
    (hx : s.index.val + x.val ≤ 4095) (hindex : u.index = t.index)
    (hblock : ∀ j ≤ x, u.memory.byteAt (s.index.val + j.val) = t.memory.byteAt (s.index.val + j.val))
    (hz : z ≤ x) :
    ∃ v, (assemble 0xF z 0x65).execute set u = .ok () v ∧ (∀ r ≤ z, v.register r = s.register r) ∧
      (∀ r, z < r → v.register r = u.register r) ∧ v = { u with registers := v.registers } := by
  have hi : u.index.val = s.index.val := by rw [hindex, h.rest]
  have hzx : z.val ≤ x.val := hz
  obtain ⟨v, hv, hloaded⟩ := loaded_registers hset u (x := z) (by omega)
  refine ⟨v, hv, ?_, hloaded.above, hloaded.rest⟩
  intro r hr
  have hrx : r ≤ x := Nat.le_trans hr hz
  rw [hloaded.inside r hr, hi, hblock r hrx, h.register hrx]

/-! ### The main statement -/

/-- What FX55 stores is loaded by FZ65 in every state that has the same index and the same bytes in the
block. FX33 stores the decimal digits of a register, and F265 loads them. Where a block does not fit, each of
the words is refused. -/
theorem blocks_round_trip (hset : set ≠ .idle) (s : State ρ) (x : Register) :
    let i := s.index.val
    (i + x.val ≤ 4095 →
      ∃ t, (assemble 0xF x 0x55).execute set s = .ok () t ∧
        (∀ j ≤ x, t.memory.byteAt (i + j.val) = s.register j) ∧
        (∀ a, a < i ∨ i + x.val < a → t.memory.byteAt a = s.memory.byteAt a) ∧
        t = { s with memory := t.memory } ∧
        ∀ (u : State ρ) (z : Register), u.index = t.index →
          (∀ j ≤ x, u.memory.byteAt (i + j.val) = t.memory.byteAt (i + j.val)) → z ≤ x →
          ∃ v, (assemble 0xF z 0x65).execute set u = .ok () v ∧
            (∀ r ≤ z, v.register r = s.register r) ∧ (∀ r, z < r → v.register r = u.register r) ∧
            v = { u with registers := v.registers }) ∧
    (i + 2 ≤ 4095 →
      ∃ t, (assemble 0xF x 0x33).execute set s = .ok () t ∧
        (∀ k < 3, (t.memory.byteAt (i + k)).toNat ≤ 9) ∧
        100 * (t.memory.byteAt i).toNat + 10 * (t.memory.byteAt (i + 1)).toNat +
          (t.memory.byteAt (i + 2)).toNat = (s.register x).toNat ∧
        (∀ a, a < i ∨ i + 2 < a → t.memory.byteAt a = s.memory.byteAt a) ∧
        t = { s with memory := t.memory } ∧
        ∃ u, Word.execute set 0xF265#16 t = .ok () u ∧
          (∀ r ≤ (2 : Register), u.register r = t.memory.byteAt (i + r.val)) ∧
          (∀ r, (2 : Register) < r → u.register r = t.register r) ∧
          u = { t with registers := u.registers }) ∧
    (4095 < i + x.val →
      Word.Refused set s (assemble 0xF x 0x55) ∧ Word.Refused set s (assemble 0xF x 0x65)) ∧
    (4095 < i + 2 → Word.Refused set s (assemble 0xF x 0x33)) := by
  dsimp only
  refine ⟨?_, ?_, ?_, ?_⟩
  · intro h
    obtain ⟨t, ht, hstored⟩ := stored_registers hset s h
    refine ⟨t, ht, fun j hj => hstored.register hj, ?_, hstored.rest, ?_⟩
    · intro a ha
      have hlength := Instruction.length_take_registers s x
      exact hstored.outside a (by omega)
    · intro u z hindex hblock hz
      exact hstored.loaded hset h hindex hblock hz
  · intro h
    obtain ⟨t, ht, hstored⟩ := stored_digits hset s x h
    obtain ⟨hdigits, hvalue⟩ := hstored.numeral
    have hi : t.index.val = s.index.val := by rw [hstored.rest]
    obtain ⟨u, hu, hloaded⟩ := loaded_registers hset t (x := 2) (by rw [hi]; exact h)
    refine ⟨t, ht, hdigits, hvalue, ?_, hstored.rest, u, hu, ?_, hloaded.above, hloaded.rest⟩
    · intro a ha
      have hlength := Instruction.length_decimalDigits (s.register x)
      exact hstored.outside a (by omega)
    · intro r hr
      rw [hloaded.inside r hr, hi]
  · intro h
    exact ⟨Instruction.refused_of_lt (i := .store x) hset rfl (by omega),
      Instruction.refused_of_lt (i := .load x) hset rfl (by omega)⟩
  · intro h
    exact Instruction.refused_of_lt (i := .decimal x) hset rfl (by omega)

/-- Three bytes just fit at the end of memory, and four do not. -/
theorem blocks_round_trip_end :
    let s : State Cycle :=
      { ((State.powerOn ⟨[], by decide⟩ .clip ⟨#[], 0⟩).setRegister 0 7).setRegister 2 254 with
        index := .ofBits 0xFFD }
    InstructionSet.standard ≠ .idle ∧
    (∃ t, Word.execute .standard 0xF255#16 s = .ok () t ∧ t.memory.byteAt 0xFFF = 254 ∧
      ∃ v, Word.execute .standard 0xF165#16 { t with registers := Vector.replicate 16 9 } = .ok () v ∧
        v.register 0 = 7 ∧ v.register 2 = 9) ∧
    (∃ t, Word.execute .standard 0xF233#16 s = .ok () t ∧
      100 * (t.memory.byteAt 0xFFD).toNat + 10 * (t.memory.byteAt 0xFFE).toNat +
        (t.memory.byteAt 0xFFF).toNat = 254) ∧
    Word.Refused .standard s 0xF355#16 ∧ Word.Refused .standard s 0xF365#16 := by
  intro s
  have hset : InstructionSet.standard ≠ .idle := by decide
  have h0 : s.register 0 = 7 := by decide
  have h2 : s.register 2 = 254 := by decide
  obtain ⟨hstore, hdigits, -, -⟩ := blocks_round_trip hset s 2
  obtain ⟨-, -, hrefused, -⟩ := blocks_round_trip hset s 3
  obtain ⟨t, ht, hin, -, -, hload⟩ := hstore (by decide)
  obtain ⟨v, hv, hloaded, habove, -⟩ :=
    hload { t with registers := Vector.replicate 16 9 } 1 rfl (fun _ _ => rfl) (by decide)
  obtain ⟨d, hd, -, hvalue, -⟩ := hdigits (by decide)
  refine ⟨hset, ⟨t, ht, ?_, v, hv, ?_, habove 2 (by decide)⟩, ⟨d, hd, ?_⟩, hrefused (by decide)⟩
  · exact (hin 2 (by decide)).trans h2
  · exact (hloaded 0 (by decide)).trans h0
  · rw [h2] at hvalue
    exact hvalue

end Chip8
