import Chip8.Proofs.Instruction.Component
import Chip8.Proofs.Machine.Footprint

/-!
# What memory holds

Memory as a map from places to bytes. At power-on it holds the glyphs, the program and zeros, and from
then on only the words FX33 and FX55 store anything over that. The main statement is
`Machine.holds_step`.
-/

namespace Chip8

abbrev Contents := Nat → Byte

namespace Contents

/-- The number that stands at a place and the next, the high byte first. -/
def wordAt (c : Contents) (a : Nat) : Nat := 256 * (c a).toNat + (c (a + 1)).toNat

/-- The contents with bytes stored over them from a place on. -/
def stored (c : Contents) (a : Nat) (bytes : List Byte) : Contents := fun i =>
  if a ≤ i ∧ i < a + bytes.length then bytes.getD (i - a) 0 else c i

def powerOn (image : List Byte) : Contents :=
  (stored (fun _ => 0) 0x50 Font.table).stored 0x200 image

theorem stored_nil (c : Contents) (a : Nat) : c.stored a [] = c := by
  funext i
  have hi : ¬ (a ≤ i ∧ i < a + ([] : List Byte).length) := by
    rw [List.length_nil]
    omega
  rw [stored, if_neg hi]

theorem stored_add (c : Contents) (a : Nat) {bytes : List Byte} {k : Nat} (hk : k < bytes.length) :
    c.stored a bytes (a + k) = bytes.getD k 0 := by
  rw [stored, if_pos (by omega), Nat.add_sub_cancel_left]

theorem wordAt_powerOn {image : List Byte} {k : Nat} (hk : 2 * k + 1 < image.length) :
    (powerOn image).wordAt (0x200 + 2 * k) =
      256 * (image.getD (2 * k) 0).toNat + (image.getD (2 * k + 1) 0).toNat := by
  rw [wordAt, powerOn, Nat.add_assoc, stored_add _ _ (Nat.lt_of_succ_lt hk), stored_add _ _ hk]

end Contents

/-! ### Memories that hold it -/

/-- The memory holds the contents as far as it reaches. -/
def Memory.Holds {size : Nat} (mem : Memory size) (c : Contents) : Prop :=
  ∀ a < size, mem.byteAt a = c a

theorem Memory.Holds.patch {size : Nat} {mem : Memory size} {c : Contents} (h : mem.Holds c)
    (start : Nat) (bytes : List Byte) : (mem.patch start bytes).Holds (c.stored start bytes) := by
  intro a ha
  rw [byteAt_patch, Contents.stored]
  by_cases hin : start ≤ a ∧ a < start + bytes.length
  · rw [if_pos ⟨hin.1, hin.2, ha⟩, if_pos hin]
  · rw [if_neg (by omega), if_neg hin]
    exact h a ha

theorem State.holds_image (program : Program) :
    (image program).Holds (Contents.powerOn program.bytes) := by
  have hblank : (Memory.blank memorySize).Holds (fun _ => 0) := fun a _ => Memory.byteAt_blank a
  exact (hblank.patch fontStart Font.table).patch programStart program.bytes

/-! ### The words that store -/

namespace Word

variable {ρ : Type}

/-- The word is FX33 or FX55. -/
def Stores (w : Word) : Prop := w.family = 0xF ∧ (w.nn = 0x33 ∨ w.nn = 0x55)

instance (w : Word) : Decidable w.Stores := inferInstanceAs (Decidable (_ ∧ _))

/-- The bytes that a word stores from the index on: the decimal digits of a register, or the registers up
to one. -/
def storedBytes (w : Word) (s : State ρ) : List Byte :=
  if w.family = 0xF ∧ w.nn = 0x33 then
    let v := (s.register w.x).toNat
    [v / 100, v / 10 % 10, v % 10].map (BitVec.ofNat 8)
  else if w.family = 0xF ∧ w.nn = 0x55 then s.registers.toList.take (w.x.val + 1)
  else []

theorem storedBytes_of_not_stores {w : Word} (h : ¬ w.Stores) (s : State ρ) : w.storedBytes s = [] := by
  have h33 : ¬ (w.family = 0xF ∧ w.nn = 0x33) := fun hw => h ⟨hw.1, .inl hw.2⟩
  have h55 : ¬ (w.family = 0xF ∧ w.nn = 0x55) := fun hw => h ⟨hw.1, .inr hw.2⟩
  rw [storedBytes, if_neg h33, if_neg h55]

theorem StandsFor.memory_effect [RandomSource ρ] {w : Word} {i : Instruction} (hw : w.StandsFor i)
    (set : InstructionSet) (s : State ρ) :
    (i.effect set s).memory = s.memory.patch s.index.val (w.storedBytes s) := by
  by_cases h33 : w.family = 0xF ∧ w.nn = 0x33
  · obtain rfl := hw.unique (.decimal h33.1 h33.2)
    rw [Instruction.memory_effect, storedBytes, if_pos h33]
    simp only [Byte.decimalDigits_eq]
  · by_cases h55 : w.family = 0xF ∧ w.nn = 0x55
    · obtain rfl := hw.unique (.store h55.1 h55.2)
      rw [Instruction.memory_effect, storedBytes, if_neg h33, if_pos h55]
    · rw [Instruction.memory_effect, storedBytes, if_neg h33, if_neg h55]
      cases hw with
      | decimal h hn => exact absurd ⟨h, hn⟩ h33
      | store h hn => exact absurd ⟨h, hn⟩ h55
      | _ => rfl

end Word

/-! ### Cycles -/

namespace Machine

variable {ρ : Type} [RandomSource ρ] {m : Machine ρ}

/-- A cycle that returns a word stores the word's bytes; one that fails stores nothing. -/
theorem holds_step (hset : m.instructions ≠ .idle) {c : Contents} (h : m.state.memory.Holds c) :
    m.step.2.state.memory.Holds
      (match m.step.1 with
      | .ok w => c.stored m.state.index.val (w.storedBytes m.state)
      | .error _ => c) := by
  have ho := m.step_outcome
  generalize m.step = result at ho ⊢
  cases ho with
  | unfetched | faulted => exact h
  | executed hp hf =>
    obtain ⟨i, hi, -, he⟩ := Word.standsFor_of_fault?_eq_none hset hf
    have hmemory : (m.nextWord.effect m.instructions m.fetched).memory =
        m.state.memory.patch m.state.index.val (m.nextWord.storedBytes m.state) := by
      rw [he, hi.memory_effect]
      rfl
    simp only [after, hmemory]
    exact h.patch _ _

end Machine

end Chip8
