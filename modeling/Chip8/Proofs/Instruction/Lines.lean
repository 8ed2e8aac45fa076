import Chip8.Instruction.Assembly
import Chip8.Text.Hex
import Mathlib.Algebra.Group.Nat.Defs

/-!
# Lines of assembly

The text of an instruction is a line: a mnemonic, which is one word, and operands. The form of an
operand shows what it names, the spaces of a text show where its line is split, and lines can be read,
although eleven instructions share the mnemonic `LD`. The main statements are `Operand.text_inj`,
`Line.text_inj` and `Instruction.instruction?_line`: from a text there is one way back.
-/

namespace Chip8

/-! ### Digits -/

namespace Numeral

theorem fixedDigits_inj {base width n m : Nat}
    (h : fixedDigits base width n = fixedDigits base width m) : n % base ^ width = m % base ^ width := by
  induction width generalizing n m with
  | zero => rw [Nat.pow_zero, Nat.mod_one, Nat.mod_one]
  | succ width ih =>
    obtain ⟨hhigh, hlow⟩ := List.append_inj' h rfl
    have hlow : n % base = m % base := List.singleton_inj.1 hlow
    rw [Nat.pow_succ', Nat.mod_mul, Nat.mod_mul, hlow, ih hhigh]

theorem digitChar_ne_space (letters : Letters) {d : Nat} (h : d < 16) : digitChar letters d ≠ ' ' := by
  intro hspace
  have hread := Hex.digit?_digitChar letters h
  rw [hspace] at hread
  cases hread

theorem toList_upperHex (width n : Nat) :
    (upperHex width n).toList = (fixedDigits 16 width n).map (digitChar .upper) :=
  toList_fixed 16 .upper width n

theorem map_digit?_toList_upperHex (width n : Nat) :
    (upperHex width n).toList.map Hex.digit? = (fixedDigits 16 width n).map some := by
  rw [toList_upperHex, List.map_map]
  refine List.map_congr_left fun d hd => ?_
  exact Hex.digit?_digitChar .upper (fixedDigits_lt (by decide) width n d hd)

theorem upperHex_inj {width n m : Nat} (hn : n < 16 ^ width) (hm : m < 16 ^ width)
    (h : upperHex width n = upperHex width m) : n = m := by
  have hread : (fixedDigits 16 width n).map some = (fixedDigits 16 width m).map some := by
    rw [← map_digit?_toList_upperHex, ← map_digit?_toList_upperHex, h]
  have hmod := fixedDigits_inj ((List.map_inj_right fun _ _ => Option.some.inj).1 hread)
  rwa [Nat.mod_eq_of_lt hn, Nat.mod_eq_of_lt hm] at hmod

theorem space_notMem_upperHex (width n : Nat) : ' ' ∉ (upperHex width n).toList := by
  rw [toList_upperHex, List.mem_map]
  rintro ⟨d, hd, hspace⟩
  exact digitChar_ne_space .upper (fixedDigits_lt (by decide) width n d hd) hspace

end Numeral

namespace Assembly

/-! ### Operands -/

/-- What an operand names beside registers and constants. -/
inductive Place where
  | index
  | indexed
  | delayTimer
  | soundTimer
  | key
  | glyph
  | decimal
  deriving DecidableEq, Repr

def Place.text : Place → String
  | index => "I"
  | indexed => "[I]"
  | delayTimer => "DT"
  | soundTimer => "ST"
  | key => "K"
  | glyph => "F"
  | decimal => "B"

theorem Place.text_inj {p q : Place} (h : p.text = q.text) : p = q := by
  cases p <;> cases q <;> first | rfl | simp [text] at h

/-- What stands behind a mnemonic. A constant has as many digits as nibbles. -/
inductive Operand where
  | register (r : Register)
  | constant (nibbles : Nat) (value : BitVec (4 * nibbles))
  | place (p : Place)
  deriving DecidableEq, Repr

namespace Operand

def text : Operand → String
  | register r => r.text
  | constant nibbles value => Assembly.constant nibbles value.toNat
  | place p => p.text

theorem toList_text_register (r : Register) :
    (register r).text.toList = 'V' :: (Numeral.upperHex 1 r.val).toList := by
  simp [text, Register.text]

theorem toList_text_constant (nibbles : Nat) (value : BitVec (4 * nibbles)) :
    (constant nibbles value).text.toList =
      '0' :: 'x' :: (Numeral.upperHex nibbles value.toNat).toList := by
  simp [text, Assembly.constant]

theorem space_notMem_text (a : Operand) : ' ' ∉ a.text.toList := by
  cases a with
  | register r => simp [toList_text_register, Numeral.space_notMem_upperHex]
  | constant nibbles value => simp [toList_text_constant, Numeral.space_notMem_upperHex]
  | place p => cases p <;> decide

/-- The first character tells registers, constants and places apart. -/
theorem head?_text (a : Operand) :
    a.text.toList.head? = match a with
      | register _ => some 'V'
      | constant _ _ => some '0'
      | place p => p.text.toList.head? := by
  cases a with
  | register r => rw [toList_text_register, List.head?_cons]
  | constant nibbles value => rw [toList_text_constant, List.head?_cons]
  | place p => rfl

theorem constant_inj {nibbles nibbles' : Nat} {value : BitVec (4 * nibbles)}
    {value' : BitVec (4 * nibbles')} (h : (constant nibbles value).text = (constant nibbles' value').text) :
    constant nibbles value = constant nibbles' value' := by
  have hchars := congrArg String.toList h
  rw [toList_text_constant, toList_text_constant, List.cons_inj_right, List.cons_inj_right] at hchars
  have hwidth := congrArg List.length hchars
  simp only [Numeral.toList_upperHex, List.length_map, Numeral.fixedDigits_length] at hwidth
  subst hwidth
  have hlt (v : BitVec (4 * nibbles)) : v.toNat < 16 ^ nibbles := by
    have := v.isLt
    rwa [Nat.pow_mul] at this
  rw [BitVec.eq_of_toNat_eq (Numeral.upperHex_inj (hlt value) (hlt value') (String.toList_inj.1 hchars))]

theorem text_inj {a b : Operand} (h : a.text = b.text) : a = b := by
  have hhead : a.text.toList.head? = b.text.toList.head? := by rw [h]
  rw [head?_text, head?_text] at hhead
  cases a with
  | register r =>
    cases b with
    | register s =>
      have hdigit : Numeral.upperHex 1 r.val = Numeral.upperHex 1 s.val := (String.append_right_inj "V").1 h
      rw [Fin.ext (Numeral.upperHex_inj r.isLt s.isLt hdigit)]
    | constant nibbles value => cases hhead
    | place p => cases p <;> cases hhead
  | constant nibbles value =>
    cases b with
    | register r => cases hhead
    | constant nibbles' value' => exact constant_inj h
    | place p => cases p <;> cases hhead
  | place p =>
    cases b with
    | register r => cases p <;> cases hhead
    | constant nibbles value => cases p <;> cases hhead
    | place q => rw [Place.text_inj h]

end Operand

/-! ### Lines -/

/-- A mnemonic, which is one word, and its operands. -/
@[ext] structure Line where
  mnemonic : String
  operands : List Operand
  oneWord : ' ' ∉ mnemonic.toList := by decide

/-- The texts of operands, with a comma behind all but the last. -/
def punctuated : List Operand → List (List Char)
  | [] => []
  | [a] => [a.text.toList]
  | a :: b :: rest => (a.text.toList ++ [',']) :: punctuated (b :: rest)

theorem length_punctuated (operands : List Operand) :
    (punctuated operands).length = operands.length := by
  fun_induction punctuated operands with
  | case1 => rfl
  | case2 => rfl
  | case3 a b rest ih => rw [List.length_cons, List.length_cons, ih]

theorem punctuated_ne_nil (a : Operand) (rest : List Operand) : punctuated (a :: rest) ≠ [] := by
  rw [← List.length_pos_iff, length_punctuated]
  exact Nat.succ_pos _

theorem space_notMem_punctuated (operands : List Operand) : ∀ l ∈ punctuated operands, ' ' ∉ l := by
  fun_induction punctuated operands with
  | case1 => simp
  | case2 a => simpa using a.space_notMem_text
  | case3 a b rest ih => simpa [a.space_notMem_text] using ih

theorem punctuated_inj {operands operands' : List Operand} (h : punctuated operands = punctuated operands') :
    operands = operands' := by
  have hlength := congrArg List.length h
  rw [length_punctuated, length_punctuated] at hlength
  fun_induction punctuated operands generalizing operands' with
  | case1 => exact (List.length_eq_zero_iff.1 hlength.symm).symm
  | case2 a =>
    obtain ⟨b, rfl⟩ := List.length_eq_one_iff.1 hlength.symm
    rw [Operand.text_inj (String.toList_inj.1 (List.singleton_inj.1 h))]
  | case3 a b rest ih =>
    match operands', hlength with
    | a' :: b' :: rest', hlength =>
      obtain ⟨hfirst, hrest⟩ := List.cons.inj h
      rw [Operand.text_inj (String.toList_inj.1 (List.append_cancel_right hfirst)),
        ih hrest (Nat.succ.inj hlength)]

/-- Commas behind the operands and spaces between them. -/
theorem intercalate_punctuated (operands : List Operand) :
    [' '].intercalate (punctuated operands) = [',', ' '].intercalate (operands.map fun a => a.text.toList) := by
  fun_induction punctuated operands with
  | case1 => rfl
  | case2 a => simp
  | case3 a b rest ih =>
    rw [List.intercalate_cons_of_ne_nil (punctuated_ne_nil b rest), ih]
    simp [List.intercalate_cons_cons]

namespace Line

def text (l : Line) : String :=
  match l.operands with
  | [] => l.mnemonic
  | operands => Assembly.line l.mnemonic (operands.map Operand.text)

/-- The words of the text of a line. -/
def words (l : Line) : List (List Char) := l.mnemonic.toList :: punctuated l.operands

theorem toList_text (l : Line) : l.text.toList = [' '].intercalate l.words := by
  obtain ⟨mnemonic, operands, h⟩ := l
  cases operands with
  | nil => simp [text, words, punctuated]
  | cons a rest =>
    rw [words, List.intercalate_cons_of_ne_nil (punctuated_ne_nil a rest), intercalate_punctuated]
    simp [text, Assembly.line, String.toList_intercalate]
    rfl

/-- A text is split where it has a space. -/
theorem splitOn_text (l : Line) : l.text.toList.splitOn ' ' = l.words := by
  have hwords : ∀ w ∈ l.words, ' ' ∉ w :=
    List.forall_mem_cons.2 ⟨l.oneWord, space_notMem_punctuated l.operands⟩
  rw [toList_text, List.splitOn_intercalate ' ' hwords (List.cons_ne_nil _ _)]

theorem text_inj {l m : Line} (h : l.text = m.text) : l = m := by
  have hwords : l.words = m.words := by rw [← splitOn_text, ← splitOn_text, h]
  obtain ⟨hmnemonic, hoperands⟩ := List.cons.inj hwords
  exact Line.ext (String.toList_inj.1 hmnemonic) (punctuated_inj hoperands)

end Line

end Assembly

/-! ### Lines of instructions -/

open Assembly

theorem Operation.space_notMem_mnemonic (op : Operation) : ' ' ∉ op.mnemonic.toList := by
  cases op <;> decide

/-- The line of an instruction that skips on a condition. -/
def Condition.line : Condition → Line
  | equalsConst x k => { mnemonic := "SE", operands := [.register x, .constant 2 k] }
  | differsConst x k => { mnemonic := "SNE", operands := [.register x, .constant 2 k] }
  | equals x y => { mnemonic := "SE", operands := [.register x, .register y] }
  | differs x y => { mnemonic := "SNE", operands := [.register x, .register y] }
  | keyDown x => { mnemonic := "SKP", operands := [.register x] }
  | keyUp x => { mnemonic := "SKNP", operands := [.register x] }

namespace Instruction

/-- The line of an instruction. -/
def line : Instruction → Line
  | clear => { mnemonic := "CLS", operands := [] }
  | ret => { mnemonic := "RET", operands := [] }
  | jump t => { mnemonic := "JP", operands := [.constant 3 t] }
  | call t => { mnemonic := "CALL", operands := [.constant 3 t] }
  | skip c => c.line
  | setConst x k => { mnemonic := "LD", operands := [.register x, .constant 2 k] }
  | addConst x k => { mnemonic := "ADD", operands := [.register x, .constant 2 k] }
  | operate op x y =>
    { mnemonic := op.mnemonic
      operands := [.register x, .register y]
      oneWord := op.space_notMem_mnemonic }
  | setIndex t => { mnemonic := "LD", operands := [.place .index, .constant 3 t] }
  | jumpOffset t => { mnemonic := "JP", operands := [.register .first, .constant 3 t] }
  | random x mask => { mnemonic := "RND", operands := [.register x, .constant 2 mask] }
  | draw x y height =>
    { mnemonic := "DRW", operands := [.register x, .register y, .constant 1 height] }
  | readDelay x => { mnemonic := "LD", operands := [.register x, .place .delayTimer] }
  | awaitKey x => { mnemonic := "LD", operands := [.register x, .place .key] }
  | setDelay x => { mnemonic := "LD", operands := [.place .delayTimer, .register x] }
  | setSound x => { mnemonic := "LD", operands := [.place .soundTimer, .register x] }
  | addIndex x => { mnemonic := "ADD", operands := [.place .index, .register x] }
  | glyph x => { mnemonic := "LD", operands := [.place .glyph, .register x] }
  | decimal x => { mnemonic := "LD", operands := [.place .decimal, .register x] }
  | store x => { mnemonic := "LD", operands := [.place .indexed, .register x] }
  | load x => { mnemonic := "LD", operands := [.register x, .place .indexed] }

theorem text_line (i : Instruction) : i.line.text = i.text := by
  cases i with
  | skip c => cases c <;> rfl
  | _ => rfl

end Instruction

/-- The instruction of a line. -/
def Assembly.Line.instruction? (l : Line) : Option Instruction :=
  match l.mnemonic, l.operands with
  | "CLS", [] => some .clear
  | "RET", [] => some .ret
  | "JP", [.constant 3 t] => some (.jump t)
  | "CALL", [.constant 3 t] => some (.call t)
  | "SE", [.register x, .constant 2 k] => some (.skip (.equalsConst x k))
  | "SNE", [.register x, .constant 2 k] => some (.skip (.differsConst x k))
  | "SE", [.register x, .register y] => some (.skip (.equals x y))
  | "SNE", [.register x, .register y] => some (.skip (.differs x y))
  | "SKP", [.register x] => some (.skip (.keyDown x))
  | "SKNP", [.register x] => some (.skip (.keyUp x))
  | "LD", [.register x, .constant 2 k] => some (.setConst x k)
  | "ADD", [.register x, .constant 2 k] => some (.addConst x k)
  | "LD", [.register x, .register y] => some (.operate .copy x y)
  | "OR", [.register x, .register y] => some (.operate .or x y)
  | "AND", [.register x, .register y] => some (.operate .and x y)
  | "XOR", [.register x, .register y] => some (.operate .xor x y)
  | "ADD", [.register x, .register y] => some (.operate .add x y)
  | "SUB", [.register x, .register y] => some (.operate .sub x y)
  | "SHR", [.register x, .register y] => some (.operate .shiftRight x y)
  | "SUBN", [.register x, .register y] => some (.operate .subFrom x y)
  | "SHL", [.register x, .register y] => some (.operate .shiftLeft x y)
  | "LD", [.place .index, .constant 3 t] => some (.setIndex t)
  | "JP", [.register 0, .constant 3 t] => some (.jumpOffset t)
  | "RND", [.register x, .constant 2 mask] => some (.random x mask)
  | "DRW", [.register x, .register y, .constant 1 height] => some (.draw x y height)
  | "LD", [.register x, .place .delayTimer] => some (.readDelay x)
  | "LD", [.register x, .place .key] => some (.awaitKey x)
  | "LD", [.place .delayTimer, .register x] => some (.setDelay x)
  | "LD", [.place .soundTimer, .register x] => some (.setSound x)
  | "ADD", [.place .index, .register x] => some (.addIndex x)
  | "LD", [.place .glyph, .register x] => some (.glyph x)
  | "LD", [.place .decimal, .register x] => some (.decimal x)
  | "LD", [.place .indexed, .register x] => some (.store x)
  | "LD", [.register x, .place .indexed] => some (.load x)
  | _, _ => none

theorem Instruction.instruction?_line (i : Instruction) : i.line.instruction? = some i := by
  cases i with
  | skip c => cases c <;> rfl
  | operate op x y => cases op <;> rfl
  | _ => rfl

end Chip8
