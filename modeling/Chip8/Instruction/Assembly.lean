import Chip8.Instruction

/-!
# Assembly text

An instruction is written as a mnemonic and its operands: registers as `V` and a digit, numbers
with the mark `0x` and as many digits as the nibbles of their field. A word that stands for no
instruction is written as data.
-/

namespace Chip8

def Operation.mnemonic : Operation → String
  | copy => "LD"
  | or => "OR"
  | and => "AND"
  | xor => "XOR"
  | add => "ADD"
  | sub => "SUB"
  | shiftRight => "SHR"
  | subFrom => "SUBN"
  | shiftLeft => "SHL"

namespace Assembly

/-- A number of a given count of hexadecimal digits. -/
def constant (width n : Nat) : String := "0x" ++ Numeral.upperHex width n

def byte (k : Byte) : String := constant 2 k.toNat

def target (t : BitVec 12) : String := constant 3 t.toNat

/-- A mnemonic with its operands. -/
def line (mnemonic : String) (operands : List String) : String :=
  mnemonic ++ " " ++ String.intercalate ", " operands

end Assembly

namespace Condition

open Assembly

/-- The text of an instruction that skips on a condition. -/
def text : Condition → String
  | equalsConst x k => line "SE" [x.text, byte k]
  | differsConst x k => line "SNE" [x.text, byte k]
  | equals x y => line "SE" [x.text, y.text]
  | differs x y => line "SNE" [x.text, y.text]
  | keyDown x => line "SKP" [x.text]
  | keyUp x => line "SKNP" [x.text]

end Condition

namespace Instruction

open Assembly

def text : Instruction → String
  | clear => "CLS"
  | ret => "RET"
  | jump t => line "JP" [target t]
  | call t => line "CALL" [target t]
  | skip c => c.text
  | setConst x k => line "LD" [x.text, byte k]
  | addConst x k => line "ADD" [x.text, byte k]
  | operate op x y => line op.mnemonic [x.text, y.text]
  | setIndex t => line "LD" ["I", target t]
  | jumpOffset t => line "JP" ["V0", target t]
  | random x mask => line "RND" [x.text, byte mask]
  | draw x y height => line "DRW" [x.text, y.text, constant 1 height.toNat]
  | readDelay x => line "LD" [x.text, "DT"]
  | awaitKey x => line "LD" [x.text, "K"]
  | setDelay x => line "LD" ["DT", x.text]
  | setSound x => line "LD" ["ST", x.text]
  | addIndex x => line "ADD" ["I", x.text]
  | glyph x => line "LD" ["F", x.text]
  | decimal x => line "LD" ["B", x.text]
  | store x => line "LD" ["[I]", x.text]
  | load x => line "LD" [x.text, "[I]"]

end Instruction

def Word.disassemble (w : Word) : String :=
  match Instruction.decode? w with
  | some i => i.text
  | none => "DW " ++ Assembly.constant 4 w.toNat

/-- The assembly text of a byte that no second byte completes to a word. -/
def Byte.disassemble (b : Byte) : String := "DW " ++ Assembly.byte b

end Chip8
