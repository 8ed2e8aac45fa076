import Chip8.Proofs.Byte
import Chip8.Proofs.Instruction.Effect

/-!
# Stores to memory

A memory under any sequence of stores, some of them refused: each byte is what was stored there last
by a store that was not refused, or zero. The main statement is `Memory.keeps_latest_stores`.
-/

namespace Chip8.Memory

/-- A call that stores. An image is given by numbers as well, of which the low eight bits count. -/
inductive Store where
  | write (address value : Int)
  | writeBlock (address : Int) (values : List Int)
  | load (address : Int) (image : List Int)
  deriving DecidableEq, Repr

namespace Store

def address : Store → Int
  | write a _ => a
  | writeBlock a _ => a
  | load a _ => a

def values : Store → List Int
  | write _ v => [v]
  | writeBlock _ vs => vs
  | load _ vs => vs

/-- The number that a call stores at a place of a memory, if it is not refused. -/
def stored? (size : Nat) (a : Int) (call : Store) : Option Int :=
  if Fits size call.address call.values.length ∧ call.address ≤ a then
    call.values[(a - call.address).toNat]?
  else none

end Store

/-- The number that was stored last at a place, if one was. -/
def latest? (size : Nat) (calls : List Store) (a : Int) : Option Int :=
  calls.reverse.findSome? fun call => call.stored? size a

section

variable {size : Nat} (m : Memory size)

def apply : Store → Except Fault (Memory size)
  | .write a v => m.write a v
  | .writeBlock a vs => m.writeBlock a vs
  | .load a vs => m.load a (vs.map Byte.ofInt)

/-- The memory behind a call, which is the same memory if the call is refused. -/
def perform (call : Store) : Memory size := (m.apply call).toOption.getD m

def performAll (calls : List Store) : Memory size := calls.foldl perform m

end

/-! ### Refusals -/

variable {size : Nat} {m : Memory size}

theorem fits_iff {address length : Int} :
    Fits size address length ↔ ¬ (address < 0 ∨ address + length > size) := by
  unfold Fits
  omega

theorem not_fits_of {address length : Int} (h : address < 0 ∨ address + length > size) :
    ¬ Fits size address length := mt fits_iff.1 (not_not_intro h)

theorem check_of_fits {address length : Int} (h : Fits size address length) :
    check size address length = .ok () := if_pos h

theorem check_of_not_fits {address length : Int} (h : ¬ Fits size address length) :
    check size address length = .error (.outOfMemory address length) := if_neg h

/-- The three kinds of calls differ in how their numbers are given and in nothing else. -/
theorem apply_eq (m : Memory size) (call : Store) :
    m.apply call = m.load call.address (call.values.map Byte.ofInt) := by
  cases call <;> rfl

theorem apply_of_fits {call : Store} (h : Fits size call.address call.values.length) :
    m.apply call = .ok (m.patch call.address.toNat (call.values.map Byte.ofInt)) := by
  rw [apply_eq, load, List.length_map, check_of_fits h]
  rfl

theorem apply_of_not_fits {call : Store} (h : ¬ Fits size call.address call.values.length) :
    m.apply call = .error (.outOfMemory call.address call.values.length) := by
  rw [apply_eq, load, List.length_map, check_of_not_fits h]
  rfl

theorem perform_of_fits {call : Store} (h : Fits size call.address call.values.length) :
    m.perform call = m.patch call.address.toNat (call.values.map Byte.ofInt) := by
  rw [perform, apply_of_fits h]
  rfl

theorem perform_of_not_fits {call : Store} (h : ¬ Fits size call.address call.values.length) :
    m.perform call = m := by
  rw [perform, apply_of_not_fits h]
  rfl

/-! ### One call -/

theorem byteAt_patch_inside {start j : Nat} {image : List Byte} (hj : j < image.length)
    (hend : start + image.length ≤ size) : (m.patch start image).byteAt (start + j) = image.getD j 0 := by
  rw [byteAt_patch, if_pos (by omega), Nat.add_sub_cancel_left]

theorem byteAt_patch_outside {start a : Nat} {image : List Byte}
    (ha : a < start ∨ start + image.length ≤ a) : (m.patch start image).byteAt a = m.byteAt a := by
  rw [byteAt_patch, if_neg (by omega)]

namespace Store

variable {call : Store}

theorem stored?_inside (h : Fits size call.address call.values.length) (j : Nat) :
    call.stored? size (call.address + j) = call.values[j]? := by
  have hle : call.address ≤ call.address + j := by omega
  have hplace : (call.address + j - call.address).toNat = j := by omega
  rw [stored?, if_pos ⟨h, hle⟩, hplace]

theorem stored?_outside {a : Int} (h : a < call.address ∨ call.address + call.values.length ≤ a) :
    call.stored? size a = none := by
  rw [stored?]
  split
  · rw [List.getElem?_eq_none (by omega)]
  · rfl

theorem stored?_of_not_fits (h : ¬ Fits size call.address call.values.length) (a : Int) :
    call.stored? size a = none := if_neg fun hs => h hs.1

end Store

theorem byteAt_perform (m : Memory size) (call : Store) (a : Nat) :
    (m.perform call).byteAt a = ((call.stored? size a).map Byte.ofInt).getD (m.byteAt a) := by
  by_cases hf : Fits size call.address call.values.length
  · have hstart := Int.toNat_of_nonneg hf.1
    have hend : call.address.toNat + call.values.length ≤ size := by
      have h := hf.2
      omega
    rw [perform_of_fits hf]
    by_cases ha : a < call.address.toNat ∨ call.address.toNat + call.values.length ≤ a
    · rw [byteAt_patch_outside (by rwa [List.length_map]), Store.stored?_outside (by omega)]
      rfl
    · obtain ⟨j, rfl⟩ := Nat.exists_eq_add_of_le (show call.address.toNat ≤ a by omega)
      have hj : j < call.values.length := by omega
      have hstored := Store.stored?_inside hf j
      rw [← hstart, List.getElem?_eq_getElem hj] at hstored
      rw [byteAt_patch_inside (by rwa [List.length_map]) (by rwa [List.length_map]), Int.natCast_add,
        hstored]
      simp [hj]
  · rw [perform_of_not_fits hf, Store.stored?_of_not_fits hf]
    rfl

/-! ### Any calls -/

theorem latest?_cons (call : Store) (rest : List Store) (a : Int) :
    latest? size (call :: rest) a = (latest? size rest a).or (call.stored? size a) := by
  simp [latest?, List.findSome?_append]

-- a later call of the history is behind the induction hypothesis, so it wins over the first one
theorem byteAt_performAll (m : Memory size) (calls : List Store) (a : Nat) :
    (m.performAll calls).byteAt a =
      ((latest? size calls a).map Byte.ofInt).getD (m.byteAt a) := by
  induction calls generalizing m with
  | nil => rfl
  | cons call rest ih =>
    have hfirst : m.performAll (call :: rest) = (m.perform call).performAll rest := rfl
    rw [hfirst, ih, byteAt_perform, latest?_cons]
    cases latest? size rest a with
    | none => rfl
    | some v => rfl

theorem toNat_byteAt_performAll (size : Nat) (calls : List Store) (a : Nat) :
    ((((blank size).performAll calls).byteAt a).toNat : Int) =
      (latest? size calls a).getD 0 % 256 := by
  rw [byteAt_performAll, byteAt_blank]
  cases latest? size calls a with
  | none => rfl
  | some v => exact Byte.toNat_ofInt v

/-! ### What is read -/

theorem read_of_lt {a : Nat} (h : a < size) : m.read a = .ok (m.byteAt a) := by
  have hf : Fits size a 1 := ⟨by omega, by omega⟩
  rw [read, check_of_fits hf]
  rfl

theorem read_of_not_fits {a : Int} (h : ¬ Fits size a 1) : m.read a = .error (.outOfMemory a 1) := by
  rw [read, check_of_not_fits h]
  rfl

theorem readBlock_of_fits {start length : Nat} (h : Fits size start length) :
    m.readBlock start length = .ok (m.block start length) := by
  rw [readBlock_eq, outside?_of_fits h]

theorem readBlock_of_not_fits {address length : Int} (h : ¬ Fits size address length) :
    m.readBlock address length = .error (.outOfMemory address length) := by
  rw [readBlock, check_of_not_fits h]
  rfl

theorem length_block (m : Memory size) (start length : Nat) :
    (m.block start length).length = length := by
  rw [block, List.length_map, List.length_range]

theorem getElem?_block (m : Memory size) (start length : Nat) {i : Nat} (h : i < length) :
    (m.block start length)[i]? = some (m.byteAt (start + i)) := by
  simp [block, h]

/-! ### The main statement -/

/-- A call is refused if it reaches below or beyond memory, and then nothing is stored. After any calls
on a blank memory, a byte is what was stored there last, and a block is made of the bytes that are read
one by one. -/
theorem keeps_latest_stores (size : Nat) (calls : List Store) :
    let m := (blank size).performAll calls
    (∀ (before : Memory size) (call : Store),
      if call.address < 0 ∨ call.address + call.values.length > size then
        (∃ f, before.apply call = .error f ∧ f.category = .memoryAccess) ∧
          before.perform call = before
      else before.apply call = .ok (before.perform call)) ∧
    m.toList.length = size ∧
    (∀ a : Int,
      if 0 ≤ a ∧ a < size then
        ∃ b, m.read a = .ok b ∧ (b.toNat : Int) = (latest? size calls a).getD 0 % 256
      else ∃ f, m.read a = .error f ∧ f.category = .memoryAccess) ∧
    ∀ (address : Int) (length : Nat),
      if address < 0 ∨ address + length > size then
        ∃ f, m.readBlock address length = .error f ∧ f.category = .memoryAccess
      else ∃ bytes, m.readBlock address length = .ok bytes ∧ bytes.length = length ∧
        ∀ i < length, ∃ b, bytes[i]? = some b ∧ m.read (address + i) = .ok b := by
  intro m
  refine ⟨?_, Vector.length_toList, ?_, ?_⟩
  · intro before call
    split
    · rename_i h
      have hf := not_fits_of h
      exact ⟨⟨_, apply_of_not_fits hf, rfl⟩, perform_of_not_fits hf⟩
    · rename_i h
      have hf := fits_iff.2 h
      rw [perform_of_fits hf, apply_of_fits hf]
  · intro a
    split
    · rename_i h
      obtain ⟨n, rfl⟩ := Int.eq_ofNat_of_zero_le h.1
      exact ⟨_, read_of_lt (Int.ofNat_lt.1 h.2), toNat_byteAt_performAll size calls n⟩
    · rename_i h
      have hf : ¬ Fits size a 1 := not_fits_of (by omega)
      exact ⟨_, read_of_not_fits hf, rfl⟩
  · intro address length
    split
    · rename_i h
      exact ⟨_, readBlock_of_not_fits (not_fits_of h), rfl⟩
    · rename_i h
      have hf := fits_iff.2 h
      obtain ⟨start, rfl⟩ := Int.eq_ofNat_of_zero_le hf.1
      refine ⟨_, readBlock_of_fits hf, m.length_block start length, ?_⟩
      intro i hi
      exact ⟨_, m.getElem?_block start length hi, read_of_lt (a := start + i) (by omega)⟩

-- of three calls the second is refused as a whole, and the third is cut to eight bits
example : ((blank 4).performAll [.writeBlock 1 [1, 2, 3], .load 2 [7, 8, 9], .write 2 (-1)]).toList =
    [0, 1, 0xFF, 3] := by decide

end Chip8.Memory
