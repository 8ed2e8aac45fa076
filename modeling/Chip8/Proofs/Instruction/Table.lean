import Chip8.Instruction

/-!
# The instruction table

What words stand for which instruction, said with the fields of the word and without the decoder:
one line for every form. The main statements are `Instruction.decode?_eq_some_iff` and
`Instruction.decode?_eq_none_iff`: the decoder reads the table, and refuses the words that are in
no line of it.
-/

namespace Chip8

/-- The low nibble that selects an operation in family 8. -/
inductive Operation.Selects : BitVec 4 → Operation → Prop
  | copy : Selects 0x0 copy
  | or : Selects 0x1 or
  | and : Selects 0x2 and
  | xor : Selects 0x3 xor
  | add : Selects 0x4 add
  | sub : Selects 0x5 sub
  | shiftRight : Selects 0x6 shiftRight
  | subFrom : Selects 0x7 subFrom
  | shiftLeft : Selects 0xE shiftLeft

namespace Word

open Instruction

/-- The table. Families 5 and 9 leave the low nibble open. -/
inductive StandsFor (w : Word) : Instruction → Prop
  | clear (h : w = 0x00E0#16) : StandsFor w clear
  | ret (h : w = 0x00EE#16) : StandsFor w ret
  | jump (h : w.family = 0x1) : StandsFor w (jump w.nnn)
  | call (h : w.family = 0x2) : StandsFor w (call w.nnn)
  | equalsConst (h : w.family = 0x3) : StandsFor w (skip (.equalsConst w.x w.nn))
  | differsConst (h : w.family = 0x4) : StandsFor w (skip (.differsConst w.x w.nn))
  | equals (h : w.family = 0x5) : StandsFor w (skip (.equals w.x w.y))
  | setConst (h : w.family = 0x6) : StandsFor w (setConst w.x w.nn)
  | addConst (h : w.family = 0x7) : StandsFor w (addConst w.x w.nn)
  | operate {op : Operation} (h : w.family = 0x8) (hn : op.Selects w.n) :
    StandsFor w (operate op w.x w.y)
  | differs (h : w.family = 0x9) : StandsFor w (skip (.differs w.x w.y))
  | setIndex (h : w.family = 0xA) : StandsFor w (setIndex w.nnn)
  | jumpOffset (h : w.family = 0xB) : StandsFor w (jumpOffset w.nnn)
  | random (h : w.family = 0xC) : StandsFor w (random w.x w.nn)
  | draw (h : w.family = 0xD) : StandsFor w (draw w.x w.y w.n)
  | keyDown (h : w.family = 0xE) (hn : w.nn = 0x9E) : StandsFor w (skip (.keyDown w.x))
  | keyUp (h : w.family = 0xE) (hn : w.nn = 0xA1) : StandsFor w (skip (.keyUp w.x))
  | readDelay (h : w.family = 0xF) (hn : w.nn = 0x07) : StandsFor w (readDelay w.x)
  | awaitKey (h : w.family = 0xF) (hn : w.nn = 0x0A) : StandsFor w (awaitKey w.x)
  | setDelay (h : w.family = 0xF) (hn : w.nn = 0x15) : StandsFor w (setDelay w.x)
  | setSound (h : w.family = 0xF) (hn : w.nn = 0x18) : StandsFor w (setSound w.x)
  | addIndex (h : w.family = 0xF) (hn : w.nn = 0x1E) : StandsFor w (addIndex w.x)
  | glyph (h : w.family = 0xF) (hn : w.nn = 0x29) : StandsFor w (glyph w.x)
  | decimal (h : w.family = 0xF) (hn : w.nn = 0x33) : StandsFor w (decimal w.x)
  | store (h : w.family = 0xF) (hn : w.nn = 0x55) : StandsFor w (store w.x)
  | load (h : w.family = 0xF) (hn : w.nn = 0x65) : StandsFor w (load w.x)

/-- The words without a line in the table. -/
def Unassigned (w : Word) : Prop :=
  (w.family = 0x0 ∧ w ≠ 0x00E0#16 ∧ w ≠ 0x00EE#16) ∨
  (w.family = 0x8 ∧ w.n ∉ [0x0, 0x1, 0x2, 0x3, 0x4, 0x5, 0x6, 0x7, 0xE]) ∨
  (w.family = 0xE ∧ w.nn ∉ [0x9E, 0xA1]) ∨
  (w.family = 0xF ∧ w.nn ∉ [0x07, 0x0A, 0x15, 0x18, 0x1E, 0x29, 0x33, 0x55, 0x65])

instance (w : Word) : Decidable w.Unassigned := inferInstanceAs (Decidable (_ ∨ _))

end Word

/-! ### The decoder reads the table -/

theorem Operation.ofNibble?_eq_some_iff {n : BitVec 4} {op : Operation} :
    ofNibble? n = some op ↔ op.Selects n := by
  constructor
  · intro h
    unfold ofNibble? at h
    split at h <;> cases h <;> constructor
  · intro h
    cases h <;> rfl

theorem Operation.ofNibble?_eq_none_iff {n : BitVec 4} :
    ofNibble? n = none ↔ n ∉ [0x0, 0x1, 0x2, 0x3, 0x4, 0x5, 0x6, 0x7, 0xE] := by
  revert n
  decide

namespace Instruction

theorem decodeSystem?_sound {w : Word} {i : Instruction} (h : decodeSystem? w = some i) :
    w.StandsFor i := by
  unfold decodeSystem? at h
  split at h <;> cases h
  · exact .clear rfl
  · exact .ret rfl

theorem decodeKey?_sound {w : Word} {i : Instruction} (hf : w.family = 0xE)
    (h : decodeKey? w.x w.nn = some i) : w.StandsFor i := by
  unfold decodeKey? at h
  split at h
  case h_1 hn =>
    cases h
    exact .keyDown hf hn
  case h_2 hn =>
    cases h
    exact .keyUp hf hn
  case h_3 => cases h

theorem decodeMisc?_sound {w : Word} {i : Instruction} (hf : w.family = 0xF)
    (h : decodeMisc? w.x w.nn = some i) : w.StandsFor i := by
  unfold decodeMisc? at h
  split at h
  case h_10 => cases h
  all_goals
    rename_i hn
    cases h
    constructor
    · exact hf
    · exact hn

theorem family_eq_fifteen {f : BitVec 4}
    (h : f ∉ [0x0, 0x1, 0x2, 0x3, 0x4, 0x5, 0x6, 0x7, 0x8, 0x9, 0xA, 0xB, 0xC, 0xD, 0xE]) :
    f = 0xF := by
  revert f
  decide

theorem decode?_sound {w : Word} {i : Instruction} (h : decode? w = some i) : w.StandsFor i := by
  unfold decode? at h
  split at h
  case h_1 hf => exact decodeSystem?_sound h
  case h_9 hf =>
    obtain ⟨op, hop, rfl⟩ := Option.map_eq_some_iff.1 h
    exact .operate hf (Operation.ofNibble?_eq_some_iff.1 hop)
  case h_15 hf => exact decodeKey?_sound hf h
  case h_16 =>
    have hf : w.family = 0xF := family_eq_fifteen (by simp_all)
    exact decodeMisc?_sound hf h
  all_goals
    rename_i hf
    cases h
    constructor
    exact hf

theorem decode?_complete {w : Word} {i : Instruction} (h : w.StandsFor i) : decode? w = some i := by
  cases h with
  | clear h => subst h; rfl
  | ret h => subst h; rfl
  | operate h hn => simp [decode?, h, Operation.ofNibble?_eq_some_iff.2 hn]
  | keyDown h hn | keyUp h hn => simp [decode?, h, decodeKey?, hn]
  | readDelay h hn | awaitKey h hn | setDelay h hn | setSound h hn | addIndex h hn | glyph h hn
  | decimal h hn | store h hn | load h hn => simp [decode?, h, decodeMisc?, hn]
  | _ h => simp [decode?, h]

/-- The decoder finds the instruction of the table. -/
theorem decode?_eq_some_iff {w : Word} {i : Instruction} : decode? w = some i ↔ w.StandsFor i :=
  ⟨decode?_sound, decode?_complete⟩

end Instruction

namespace Word

theorem StandsFor.unique {w : Word} {i j : Instruction} (hi : w.StandsFor i)
    (hj : w.StandsFor j) : i = j :=
  Option.some.inj ((Instruction.decode?_complete hi).symm.trans (Instruction.decode?_complete hj))

theorem StandsFor.not_unassigned {w : Word} {i : Instruction} (h : w.StandsFor i) : ¬ w.Unassigned := by
  cases h with
  | clear h | ret h =>
    subst h
    decide
  | operate h hn =>
    generalize hw : w.n = n at hn
    cases hn <;> simp [Unassigned, h, hw]
  | keyDown h hn | keyUp h hn | readDelay h hn | awaitKey h hn | setDelay h hn | setSound h hn
  | addIndex h hn | glyph h hn | decimal h hn | store h hn | load h hn =>
    simp [Unassigned, h, hn]
  | _ h => simp [Unassigned, h]

end Word

namespace Instruction

/-- The decoder refuses the words without a line in the table. -/
theorem decode?_eq_none_iff {w : Word} : decode? w = none ↔ w.Unassigned := by
  constructor
  · intro h
    unfold decode? at h
    split at h
    case h_1 hf =>
      unfold decodeSystem? at h
      split at h
      case h_3 h0 hE => exact .inl ⟨hf, h0, hE⟩
      all_goals cases h
    case h_9 hf =>
      rw [Option.map_eq_none_iff, Operation.ofNibble?_eq_none_iff] at h
      exact .inr (.inl ⟨hf, h⟩)
    case h_15 hf =>
      unfold decodeKey? at h
      split at h
      case h_3 h0 h1 => exact .inr (.inr (.inl ⟨hf, by simpa using ⟨h0, h1⟩⟩))
      all_goals cases h
    case h_16 =>
      have hf : w.family = 0xF := family_eq_fifteen (by simp_all)
      unfold decodeMisc? at h
      split at h
      case h_10 h0 h1 h2 h3 h4 h5 h6 h7 h8 =>
        exact .inr (.inr (.inr ⟨hf, by simpa using ⟨h0, h1, h2, h3, h4, h5, h6, h7, h8⟩⟩))
      all_goals cases h
    all_goals cases h
  · intro h
    cases hd : decode? w with
    | none => rfl
    | some i => exact absurd h ((decode?_sound hd).not_unassigned)

end Instruction

end Chip8
