import Chip8.Instruction

/-!
# The word of an instruction

Every instruction has a word, in which the nibbles that do not count are zero. The main
statements are `decode?_encode`, by which the word of an instruction stands for it, and
`encode_of_decode?`, by which a word is the word of its instruction except for the nibble that
families 5 and 9 ignore.
-/

namespace Chip8

/-- The low nibble that selects an operation. -/
def Operation.nibble : Operation → BitVec 4
  | copy => 0x0
  | or => 0x1
  | and => 0x2
  | xor => 0x3
  | add => 0x4
  | sub => 0x5
  | shiftRight => 0x6
  | subFrom => 0x7
  | shiftLeft => 0xE

theorem Operation.ofNibble?_nibble (op : Operation) : ofNibble? op.nibble = some op := by
  cases op <;> rfl

theorem Operation.nibble_of_ofNibble? {n : BitVec 4} {op : Operation} (h : ofNibble? n = some op) :
    op.nibble = n := by
  unfold ofNibble? at h
  split at h <;> cases h <;> rfl

namespace Instruction

/-- A word of a family, a register and a low byte. -/
def assemble (family : BitVec 4) (x : Register) (low : Byte) : Word :=
  family ++ (BitVec.ofFin x : BitVec 4) ++ low

/-- A low byte of a register and a nibble. -/
def lowByte (y : Register) (n : BitVec 4) : Byte := (BitVec.ofFin y : BitVec 4) ++ n

/-- The word of an instruction, with zeros in the nibbles that do not count. -/
def encode : Instruction → Word
  | clear => 0x00E0
  | ret => 0x00EE
  | jump target => 0x1#4 ++ target
  | call target => 0x2#4 ++ target
  | skip (.equalsConst x k) => assemble 0x3 x k
  | skip (.differsConst x k) => assemble 0x4 x k
  | skip (.equals x y) => assemble 0x5 x (lowByte y 0)
  | setConst x k => assemble 0x6 x k
  | addConst x k => assemble 0x7 x k
  | operate op x y => assemble 0x8 x (lowByte y op.nibble)
  | skip (.differs x y) => assemble 0x9 x (lowByte y 0)
  | setIndex target => 0xA#4 ++ target
  | jumpOffset target => 0xB#4 ++ target
  | random x mask => assemble 0xC x mask
  | draw x y height => assemble 0xD x (lowByte y height)
  | skip (.keyDown x) => assemble 0xE x 0x9E
  | skip (.keyUp x) => assemble 0xE x 0xA1
  | readDelay x => assemble 0xF x 0x07
  | awaitKey x => assemble 0xF x 0x0A
  | setDelay x => assemble 0xF x 0x15
  | setSound x => assemble 0xF x 0x18
  | addIndex x => assemble 0xF x 0x1E
  | glyph x => assemble 0xF x 0x29
  | decimal x => assemble 0xF x 0x33
  | store x => assemble 0xF x 0x55
  | load x => assemble 0xF x 0x65

/-! ### The fields of assembled words -/

theorem family_assemble (f : BitVec 4) (x : Register) (low : Byte) :
    (assemble f x low).family = f := by
  ext i hi
  simp only [assemble, Word.family, BitVec.getElem_extractLsb', BitVec.getLsbD_append]
  grind

theorem x_assemble (f : BitVec 4) (x : Register) (low : Byte) : (assemble f x low).x = x := by
  have h : (assemble f x low).extractLsb' 8 4 = BitVec.ofFin x := by
    ext i hi
    simp only [assemble, BitVec.getElem_extractLsb', BitVec.getLsbD_append]
    grind
  rw [Word.x, h]

theorem nn_assemble (f : BitVec 4) (x : Register) (low : Byte) : (assemble f x low).nn = low := by
  ext i hi
  simp only [assemble, Word.nn, BitVec.getElem_setWidth, BitVec.getLsbD_append]
  grind

theorem y_assemble (f : BitVec 4) (x y : Register) (n : BitVec 4) :
    (assemble f x (lowByte y n)).y = y := by
  have h : (assemble f x (lowByte y n)).extractLsb' 4 4 = BitVec.ofFin y := by
    ext i hi
    simp only [assemble, lowByte, BitVec.getElem_extractLsb', BitVec.getLsbD_append]
    grind
  rw [Word.y, h]

theorem n_assemble (f : BitVec 4) (x y : Register) (n : BitVec 4) :
    (assemble f x (lowByte y n)).n = n := by
  ext i hi
  simp only [assemble, lowByte, Word.n, BitVec.getElem_setWidth, BitVec.getLsbD_append]
  grind

theorem family_append (f : BitVec 4) (target : BitVec 12) : Word.family (f ++ target) = f := by
  ext i hi
  simp only [Word.family, BitVec.getElem_extractLsb', BitVec.getLsbD_append]
  grind

theorem nnn_append (f : BitVec 4) (target : BitVec 12) : Word.nnn (f ++ target) = target := by
  ext i hi
  simp only [Word.nnn, BitVec.getElem_setWidth, BitVec.getLsbD_append]
  grind

/-! ### Words from their fields -/

theorem family_append_nnn (w : Word) : (w.family ++ w.nnn : Word) = w := by
  apply BitVec.eq_of_getLsbD_eq
  intro i hi
  simp only [Word.family, Word.nnn, BitVec.getLsbD_append, BitVec.getLsbD_setWidth,
    BitVec.getLsbD_extractLsb']
  grind

theorem assemble_nn (w : Word) : assemble w.family w.x w.nn = w := by
  have hx : (BitVec.ofFin w.x : BitVec 4) = w.extractLsb' 8 4 := rfl
  rw [assemble, hx]
  apply BitVec.eq_of_getLsbD_eq
  intro i hi
  simp only [Word.family, Word.nn, BitVec.getLsbD_append, BitVec.getLsbD_setWidth,
    BitVec.getLsbD_extractLsb']
  grind

theorem lowByte_n (w : Word) : lowByte w.y w.n = w.nn := by
  have hy : (BitVec.ofFin w.y : BitVec 4) = w.extractLsb' 4 4 := rfl
  rw [lowByte, hy]
  apply BitVec.eq_of_getLsbD_eq
  intro i hi
  simp only [Word.n, Word.nn, BitVec.getLsbD_append, BitVec.getLsbD_setWidth,
    BitVec.getLsbD_extractLsb']
  grind

/-! ### Round trips -/

theorem decode?_encode (i : Instruction) : decode? i.encode = some i := by
  cases i with
  | skip c =>
    cases c <;>
      simp [encode, decode?, family_assemble, x_assemble, y_assemble, nn_assemble, decodeKey?]
  | _ =>
    simp [encode, decode?, family_append, nnn_append, family_assemble, x_assemble, y_assemble,
      nn_assemble, n_assemble, Operation.ofNibble?_nibble, decodeMisc?]
    try rfl

/-- The word with the nibble that its family ignores set to zero. -/
def canonical (w : Word) : Word :=
  if w.family = 0x5 ∨ w.family = 0x9 then assemble w.family w.x (lowByte w.y 0) else w

theorem encode_of_decodeMisc? {x : Register} {low : Byte} {i : Instruction}
    (h : decodeMisc? x low = some i) : i.encode = assemble 0xF x low := by
  unfold decodeMisc? at h
  split at h <;> cases h <;> rfl

theorem encode_of_decodeKey? {x : Register} {low : Byte} {i : Instruction}
    (h : decodeKey? x low = some i) : i.encode = assemble 0xE x low := by
  unfold decodeKey? at h
  split at h <;> cases h <;> rfl

theorem encode_of_decodeSystem? {w : Word} {i : Instruction} (h : decodeSystem? w = some i) :
    i.encode = w := by
  unfold decodeSystem? at h
  split at h <;> cases h <;> rfl

theorem encode_of_decode? {w : Word} {i : Instruction} (h : decode? w = some i) :
    i.encode = canonical w := by
  have ha := assemble_nn w
  have hn := family_append_nnn w
  have hl := lowByte_n w
  unfold decode? at h
  split at h
  case h_1 hf => simpa [canonical, hf] using encode_of_decodeSystem? h
  case h_9 hf =>
    obtain ⟨op, hop, rfl⟩ := Option.map_eq_some_iff.1 h
    rw [hf] at ha
    simp [canonical, hf, encode, Operation.nibble_of_ofNibble? hop, hl, ha]
  case h_15 hf =>
    rw [hf] at ha
    simp [canonical, hf, encode_of_decodeKey? h, ha]
  case h_16 h0 h1 h2 h3 h4 h5 h6 h7 h8 h9 hA hB hC hD hE =>
    have hf : w.family = 0xF#4 := by
      generalize w.family = f at h0 h1 h2 h3 h4 h5 h6 h7 h8 h9 hA hB hC hD hE ⊢
      revert f
      decide
    rw [hf] at ha
    simpa [canonical, hf, ha] using encode_of_decodeMisc? h
  all_goals
    rename_i hf
    cases h
    rw [hf] at ha hn
    simp [canonical, hf, encode, ha, hn, hl]

end Instruction

end Chip8
