import Chip8.Text.Blank
import Chip8.Text.Hex
import Mathlib.Tactic.SplitIfs

/-!
# What hexadecimal text spells

The reader of hexadecimal digits, told without its recursion: it takes an even number of digits, each of
either case, and nothing else. A text spells digits if there are only blanks before, between and behind
them. The main statements are `decode?_eq_some_iff`, `isSome_decode?_iff` and `spells_iff`.
-/

namespace Chip8.Hex

open Numeral

/-! ### Digits -/

def IsDigit (c : Char) : Prop := c ∈ "0123456789abcdefABCDEF".toList

instance (c : Char) : Decidable (IsDigit c) := inferInstanceAs (Decidable (c ∈ _))

theorem isDigit_digitChar (letters : Letters) {d : Nat} (h : d < 16) : IsDigit (digitChar letters d) := by
  have all : ∀ d : Fin 16, IsDigit (digitChar letters d) := by
    cases letters <;> decide
  exact all ⟨d, h⟩

theorem isBlank_digitChar (letters : Letters) {d : Nat} (h : d < 16) :
    Text.isBlank (digitChar letters d) = false := by
  have all : ∀ d : Fin 16, Text.isBlank (digitChar letters d) = false := by
    cases letters <;> decide
  exact all ⟨d, h⟩

theorem toLower_digitChar (letters : Letters) {d : Nat} (h : d < 16) :
    (digitChar letters d).toLower = digitChar .lower d := by
  have all : ∀ d : Fin 16, (digitChar letters d).toLower = digitChar .lower d := by
    cases letters <;> decide
  exact all ⟨d, h⟩

theorem toNat_lt_of_digit? {c : Char} (h : (digit? c).isSome = true) : c.toNat < 103 := by
  have hle : ∀ {high : Char}, c ≤ high → c.toNat ≤ high.toNat := fun hc => hc
  unfold digit? at h
  split_ifs at h with hc hc hc
  · exact Nat.lt_of_le_of_lt (hle hc.2) (by decide)
  · exact Nat.lt_of_le_of_lt (hle hc.2) (by decide)
  · exact Nat.lt_of_le_of_lt (hle hc.2) (by decide)
  · cases h

/-- A character is read as the number for which it is written. -/
theorem digitChar_of_digit? {c : Char} {d : Nat} (h : digit? c = some d) :
    d < 16 ∧ ∃ letters, digitChar letters d = c := by
  have all : ∀ n < 103, ∀ d ∈ digit? (Char.ofNat n),
      d < 16 ∧ (digitChar .lower d = Char.ofNat n ∨ digitChar .upper d = Char.ofNat n) := by
    decide +kernel
  have hc := all c.toNat (toNat_lt_of_digit? (h ▸ rfl)) d
  rw [Char.ofNat_toNat] at hc
  obtain ⟨hd, hlower | hupper⟩ := hc h
  · exact ⟨hd, .lower, hlower⟩
  · exact ⟨hd, .upper, hupper⟩

theorem isSome_digit?_iff {c : Char} : (digit? c).isSome = true ↔ IsDigit c := by
  constructor
  · intro h
    obtain ⟨d, hd⟩ := Option.isSome_iff_exists.1 h
    obtain ⟨hlt, letters, rfl⟩ := digitChar_of_digit? hd
    exact isDigit_digitChar letters hlt
  · intro h
    have all : ("0123456789abcdefABCDEF".toList.all fun c => (digit? c).isSome) = true := by decide
    exact List.all_eq_true.1 all c h

theorem isDigit_of_map_digit? {cs : List Char} {ds : List Nat} (h : cs.map digit? = ds.map some) :
    ∀ c ∈ cs, IsDigit c := by
  intro c hc
  have hread := List.mem_map_of_mem (f := digit?) hc
  rw [h] at hread
  obtain ⟨d, -, hd⟩ := List.mem_map.1 hread
  exact isSome_digit?_iff.1 (hd ▸ rfl)

theorem map_toLower_of_map_digit? {cs : List Char} {ds : List Nat} (h : cs.map digit? = ds.map some) :
    cs.map Char.toLower = ds.map (digitChar .lower) := by
  induction ds generalizing cs with
  | nil => rw [List.map_eq_nil_iff.1 h, List.map_nil, List.map_nil]
  | cons d rest ih =>
    obtain ⟨c, tail, rfl, hc, htail⟩ := List.map_eq_cons_iff.1 h
    obtain ⟨hd, letters, rfl⟩ := digitChar_of_digit? hc
    rw [List.map_cons, List.map_cons, toLower_digitChar letters hd, ih htail]

/-! ### Pairs of digits -/

def nibbles (b : Byte) : List Nat := [b.toNat / 16, b.toNat % 16]

theorem length_flatMap_nibbles (bytes : List Byte) : (bytes.flatMap nibbles).length = 2 * bytes.length := by
  induction bytes with
  | nil => rfl
  | cons b rest ih =>
    rw [List.flatMap_cons, List.length_append, ih, List.length_cons]
    simp only [nibbles, List.length_cons, List.length_nil]
    omega

theorem nibbles_ofNat {high low : Nat} (hh : high < 16) (hl : low < 16) :
    nibbles (BitVec.ofNat 8 (16 * high + low)) = [high, low] := by
  have hv : (BitVec.ofNat 8 (16 * high + low)).toNat = 16 * high + low := by
    rw [BitVec.toNat_ofNat]
    omega
  have hhigh : (16 * high + low) / 16 = high := by omega
  have hlow : (16 * high + low) % 16 = low := by omega
  rw [nibbles, hv, hhigh, hlow]

theorem ofNat_nibbles (b : Byte) : BitVec.ofNat 8 (16 * (b.toNat / 16) + b.toNat % 16) = b := by
  rw [Nat.div_add_mod, BitVec.ofNat_toNat, BitVec.setWidth_eq]

theorem toList_encode (bytes : List Byte) :
    (encode bytes).toList = (bytes.flatMap nibbles).map (digitChar .lower) := by
  rw [encode, String.toList_ofList, List.map_flatMap]
  rfl

theorem encode_inj {bytes bytes' : List Byte} (h : encode bytes = encode bytes') : bytes = bytes' := by
  have hread := decode?_encode bytes
  rw [h, decode?_encode] at hread
  exact (Option.some.inj hread).symm

theorem map_digit?_of_decode? {cs : List Char} {bytes : List Byte} (h : decode? cs = some bytes) :
    cs.map digit? = (bytes.flatMap nibbles).map some := by
  fun_induction decode? cs generalizing bytes with
  | case1 =>
    cases h
    rfl
  | case2 => cases h
  | case3 high low rest l h' hl hh ih =>
    obtain ⟨tail, htail, rfl⟩ := Option.map_eq_some_iff.1 h
    rw [List.flatMap_cons, nibbles_ofNat (digitChar_of_digit? hh).1 (digitChar_of_digit? hl).1,
      List.map_append, ← ih htail, List.map_cons, List.map_cons, hh, hl]
    rfl
  | case4 => cases h

theorem decode?_of_map_digit? {cs : List Char} {bytes : List Byte}
    (h : cs.map digit? = (bytes.flatMap nibbles).map some) : decode? cs = some bytes := by
  induction bytes generalizing cs with
  | nil =>
    rw [List.map_eq_nil_iff.1 h]
    rfl
  | cons b rest ih =>
    obtain ⟨high, tail, rfl, hh, htail⟩ := List.map_eq_cons_iff.1 h
    obtain ⟨low, tail, rfl, hl, htail⟩ := List.map_eq_cons_iff.1 htail
    simp only [decode?, hh, hl, ih htail, Option.map_some, ofNat_nibbles]

theorem decode?_eq_some_iff {cs : List Char} {bytes : List Byte} :
    decode? cs = some bytes ↔ cs.map digit? = (bytes.flatMap nibbles).map some :=
  ⟨map_digit?_of_decode?, decode?_of_map_digit?⟩

theorem length_of_decode? {cs : List Char} {bytes : List Byte} (h : decode? cs = some bytes) :
    cs.length = 2 * bytes.length := by
  have hlength := congrArg List.length (decode?_eq_some_iff.1 h)
  rwa [List.length_map, List.length_map, length_flatMap_nibbles] at hlength

theorem map_toLower_of_decode? {cs : List Char} {bytes : List Byte} (h : decode? cs = some bytes) :
    cs.map Char.toLower = (encode bytes).toList := by
  rw [map_toLower_of_map_digit? (decode?_eq_some_iff.1 h), toList_encode]

theorem isSome_decode?_of_digits {cs : List Char} (hdigits : ∀ c ∈ cs, IsDigit c)
    (heven : cs.length % 2 = 0) : (decode? cs).isSome = true := by
  fun_induction decode? cs with
  | case1 => rfl
  | case2 => cases heven
  | case3 high low rest l h' hl hh ih =>
    rw [Option.isSome_map]
    simp only [List.mem_cons, forall_eq_or_imp] at hdigits
    refine ih hdigits.2.2 ?_
    simp only [List.length_cons] at heven
    omega
  | case4 high low rest hnone =>
    simp only [List.mem_cons, forall_eq_or_imp, ← isSome_digit?_iff, Option.isSome_iff_exists] at hdigits
    obtain ⟨⟨h', hh⟩, ⟨l, hl⟩, -⟩ := hdigits
    exact (hnone h' l hh hl).elim

/-- The reader takes an even number of digits and nothing else. -/
theorem isSome_decode?_iff {cs : List Char} :
    (decode? cs).isSome = true ↔ (∀ c ∈ cs, IsDigit c) ∧ cs.length % 2 = 0 := by
  constructor
  · intro h
    obtain ⟨bytes, hbytes⟩ := Option.isSome_iff_exists.1 h
    have hlength := length_of_decode? hbytes
    exact ⟨isDigit_of_map_digit? (decode?_eq_some_iff.1 hbytes), by omega⟩
  · rintro ⟨hdigits, heven⟩
    exact isSome_decode?_of_digits hdigits heven

/-! ### Blanks between the digits -/

/-- The characters are those of the digits, each in letters of either case, with blanks anywhere. -/
inductive Spells : List Char → List Nat → Prop
  | done : Spells [] []
  | blank {c : Char} {cs : List Char} {ds : List Nat} (hc : Text.isBlank c = true) (h : Spells cs ds) :
    Spells (c :: cs) ds
  | digit (letters : Letters) {d : Nat} {cs : List Char} {ds : List Nat} (hd : d < 16)
    (h : Spells cs ds) : Spells (digitChar letters d :: cs) (d :: ds)

theorem Spells.map_digit? {cs : List Char} {ds : List Nat} (h : Spells cs ds) :
    (cs.filter fun c => !Text.isBlank c).map digit? = ds.map some := by
  induction h with
  | done => rfl
  | blank hc _ ih => rwa [List.filter_cons_of_neg (by simp [hc])]
  | digit letters hd _ ih =>
    rw [List.filter_cons_of_pos (by simp [isBlank_digitChar letters hd]), List.map_cons,
      digit?_digitChar letters hd, ih, List.map_cons]

theorem spells_of_map_digit? {cs : List Char} {ds : List Nat}
    (h : (cs.filter fun c => !Text.isBlank c).map digit? = ds.map some) : Spells cs ds := by
  induction cs generalizing ds with
  | nil =>
    rw [List.map_eq_nil_iff.1 h.symm]
    exact .done
  | cons c rest ih =>
    by_cases hc : Text.isBlank c = true
    · rw [List.filter_cons_of_neg (by simp [hc])] at h
      exact .blank hc (ih h)
    · rw [List.filter_cons_of_pos (by simp [hc]), List.map_cons] at h
      obtain ⟨d, tail, rfl, hd, htail⟩ := List.map_eq_cons_iff.1 h.symm
      obtain ⟨hlt, letters, rfl⟩ := digitChar_of_digit? hd.symm
      exact .digit letters hlt (ih htail.symm)

theorem spells_iff {cs : List Char} {ds : List Nat} :
    Spells cs ds ↔ (cs.filter fun c => !Text.isBlank c).map digit? = ds.map some :=
  ⟨Spells.map_digit?, spells_of_map_digit?⟩

end Chip8.Hex
