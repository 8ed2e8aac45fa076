import Chip8.Fault

/-!
# Memory

A memory is a fixed number of bytes. Addresses and lengths come as integers of any size and are
checked: a block fits when it starts at no negative address and ends within memory. A block
that does not fit leaves memory as it was. The main statements are `byteAt_patch` and
`load_eq_ok_iff`.
-/

namespace Chip8

/-- A store of `size` bytes. -/
structure Memory (size : Nat) where
  bytes : Vector Byte size
  deriving DecidableEq

namespace Memory

variable {size : Nat}

def blank (size : Nat) : Memory size := ⟨Vector.replicate size 0⟩

/-- A blank memory of a size given as an integer. -/
def ofSize? (size : Int) : Except UsageError ((n : Nat) × Memory n) :=
  if size < 0 then .error .negativeSize else .ok ⟨size.toNat, blank size.toNat⟩

/-- The byte at a place, zero beyond the end. -/
def byteAt (m : Memory size) (i : Nat) : Byte := m.bytes[i]?.getD 0

/-- The bytes from `start` on replaced by the given ones, as far as memory reaches. -/
def patch (m : Memory size) (start : Nat) : List Byte → Memory size
  | [] => m
  | b :: rest => patch ⟨m.bytes.setIfInBounds start b⟩ (start + 1) rest

/-! ### Bounds -/

/-- Does a block lie inside a memory of `size` bytes? -/
def Fits (size : Nat) (address length : Int) : Prop := 0 ≤ address ∧ address + length ≤ size

instance (size : Nat) (address length : Int) : Decidable (Fits size address length) :=
  inferInstanceAs (Decidable (_ ∧ _))

/-- A fault unless the block lies inside memory. -/
def check (size : Nat) (address length : Int) : Except Fault Unit :=
  if Fits size address length then .ok () else .error (.outOfMemory address length)

/-! ### Access -/

def read (m : Memory size) (address : Int) : Except Fault Byte := do
  check size address 1
  return m.byteAt address.toNat

/-- The bytes of a block. The end of a block of negative length, if negative, counts from the
end of memory. -/
def readBlock (m : Memory size) (address length : Int) : Except Fault (List Byte) := do
  check size address length
  let stop := if address + length < 0 then address + length + size else address + length
  return (List.range (stop - address).toNat).map fun i => m.byteAt (address.toNat + i)

/-- The memory with an image stored from an address on. The whole block is checked before
anything is stored. -/
def load (m : Memory size) (address : Int) (image : List Byte) : Except Fault (Memory size) := do
  check size address image.length
  return m.patch address.toNat image

/-- The memory with the low eight bits of each value stored from an address on. -/
def writeBlock (m : Memory size) (address : Int) (values : List Int) :
    Except Fault (Memory size) :=
  m.load address (values.map Byte.ofInt)

/-- The memory with the low eight bits of a value stored at an address. -/
def write (m : Memory size) (address value : Int) : Except Fault (Memory size) := do
  check size address 1
  return m.patch address.toNat [Byte.ofInt value]

def toList (m : Memory size) : List Byte := m.bytes.toList

/-! ### What a store does to the bytes -/

theorem byteAt_blank (i : Nat) : (blank size).byteAt i = 0 := by
  by_cases h : i < size <;> simp [blank, byteAt, h]

/-- A patch replaces its own bytes and no others. -/
theorem byteAt_patch (m : Memory size) (start : Nat) (image : List Byte) (i : Nat) :
    (m.patch start image).byteAt i =
      if start ≤ i ∧ i < start + image.length ∧ i < size then image.getD (i - start) 0
      else m.byteAt i := by
  induction image generalizing m start with
  | nil =>
    rw [if_neg (by simp only [List.length_nil]; omega)]
    rfl
  | cons b rest ih =>
    rw [patch, ih]
    simp only [List.length_cons]
    by_cases hi : start = i
    · subst hi
      rw [if_neg (by omega)]
      by_cases hs : start < size
      · simp [byteAt, hs]
      · simp [byteAt, hs]
    · by_cases hr : start + 1 ≤ i ∧ i < start + 1 + rest.length ∧ i < size
      · rw [if_pos hr, if_pos (by omega)]
        have h : i - start = i - (start + 1) + 1 := by omega
        simp [h]
      · rw [if_neg hr, if_neg (by omega)]
        simp [byteAt, hi]

theorem load_eq_ok_iff {m m' : Memory size} {address : Int} {image : List Byte} :
    m.load address image = .ok m' ↔
      Fits size address image.length ∧ m' = m.patch address.toNat image := by
  unfold load check
  by_cases h : Fits size address image.length
  · simp only [h, if_true, true_and]
    constructor
    · intro e
      cases e
      rfl
    · rintro rfl
      rfl
  · simp only [h, if_false, false_and, iff_false]
    intro e
    cases e

end Memory

end Chip8
