import Chip8.Fault
import Chip8.Instruction.Assembly

/-!
# Listings

A listing of a program image has a line for every word, the words lying back to back from the
program start on whatever they mean, and a last line for a byte that is left over. The main
statement is `bytes_lines`: the image can be read off its listing.
-/

namespace Chip8.Listing

/-- One line: the address, the word or the left-over byte, and its text. -/
structure Line where
  address : Nat
  code : Word ⊕ Byte
  deriving DecidableEq, Repr

namespace Line

def value (l : Line) : Nat :=
  match l.code with
  | .inl word => word.toNat
  | .inr byte => byte.toNat

def text (l : Line) : String :=
  match l.code with
  | .inl word => word.disassemble
  | .inr byte => byte.disassemble

def bytes (l : Line) : List Byte :=
  match l.code with
  | .inl word => [word.extractLsb' 8 8, word.nn]
  | .inr byte => [byte]

end Line

/-- The lines of an image that begins at an address. -/
def linesFrom (address : Nat) : List Byte → List Line
  | [] => []
  | [byte] => [⟨address, .inr byte⟩]
  | high :: low :: rest => ⟨address, .inl (Word.ofBytes high low)⟩ :: linesFrom (address + 2) rest

def lines (image : List Byte) : List Line := linesFrom programStart image

/-! ### What a listing holds -/

theorem bytes_word (a : Nat) (high low : Byte) :
    Line.bytes ⟨a, .inl (Word.ofBytes high low)⟩ = [high, low] := by
  have h : (Word.ofBytes high low).extractLsb' 8 8 = high := by
    ext i hi
    simp only [Word.ofBytes, BitVec.getElem_extractLsb', BitVec.getLsbD_append]
    grind
  have l : (Word.ofBytes high low).nn = low := by
    ext i hi
    simp only [Word.ofBytes, Word.nn, BitVec.getElem_setWidth, BitVec.getLsbD_append]
    grind
  simp only [Line.bytes, h, l]

theorem bytes_linesFrom (address : Nat) (image : List Byte) :
    (linesFrom address image).flatMap Line.bytes = image := by
  fun_induction linesFrom address image with
  | case1 => rfl
  | case2 => rfl
  | case3 address high low rest ih => rw [List.flatMap_cons, bytes_word, ih]; rfl

theorem bytes_lines (image : List Byte) : (lines image).flatMap Line.bytes = image :=
  bytes_linesFrom programStart image

end Chip8.Listing
