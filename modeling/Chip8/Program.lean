import Chip8.Fault

/-!
# Programs

A program is a sequence of bytes that fits into memory from the program start on.
-/

namespace Chip8

/-- A program image that fits. -/
structure Program where
  bytes : List Byte
  length_le : bytes.length ≤ maxProgramSize
  deriving DecidableEq

namespace Program

/-- The program of an image, or a fault when the image is too large. -/
def ofBytes (image : List Byte) : Except Fault Program :=
  if h : image.length ≤ maxProgramSize then .ok ⟨image, h⟩
  else .error (.programTooLarge image.length)

theorem ext {p q : Program} (h : p.bytes = q.bytes) : p = q := by
  cases p
  cases q
  cases h
  rfl

theorem ofBytes_eq_ok_iff {image : List Byte} {p : Program} :
    ofBytes image = .ok p ↔ p.bytes = image := by
  unfold ofBytes
  split
  · constructor
    · intro h
      cases h
      rfl
    · rintro rfl
      rfl
  · rename_i h
    constructor
    · intro e
      cases e
    · rintro rfl
      exact absurd p.length_le h

end Program

end Chip8
