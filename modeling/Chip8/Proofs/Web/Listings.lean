import Chip8.Proofs.Instruction.Texts
import Chip8.Proofs.Web.ProgramText
import Chip8.Web.Endpoint
import Mathlib.Data.List.Basic

/-!
# Listings that are sent

What a host sees of the listing of an image, and that the image can be read off it. A byte that stands
alone is told by its text from the word with the same number (`Word.disassemble_ne_byte`). The main
statement is `listing_covers_image`.
-/

namespace Chip8

/-! ### Words and single bytes -/

section Texts

open Assembly

theorem Assembly.space_notMem_data : ' ' ∉ "DW".toList := by decide

/-- The line of a byte that stands alone. -/
def Byte.line (b : Byte) : Assembly.Line := ⟨"DW", [.constant 2 b], space_notMem_data⟩

theorem Byte.text_line (b : Byte) : b.line.text = b.disassemble := by
  simp [line, disassemble, Line.text, Assembly.line, Operand.text, byte]

theorem Word.disassemble_ne_byte (w : Word) (b : Byte) : w.disassemble ≠ b.disassemble := by
  intro h
  rw [← w.text_line, ← b.text_line] at h
  have hline := Line.text_inj h
  have hread := w.instruction?_line
  rw [hline] at hread
  -- data is no instruction, so the word would be written as data of four digits
  have hnone : b.line.instruction? = none := rfl
  have hoperands := line_of_decode?_eq_none (hread.symm.trans hnone)
  rw [hline] at hoperands
  cases hoperands

end Texts

namespace Listing

/-! ### Lines that are shown -/

/-- What a host sees of a line. -/
structure ShownLine where
  address : Nat
  opcode : Nat
  text : String
  deriving DecidableEq, Repr

def Line.shown (l : Line) : ShownLine := ⟨l.address, l.value, l.text⟩

/-- The two bytes of a number, the high one first. -/
def bigEndian (opcode : Nat) : List Byte := [BitVec.ofNat 8 (opcode / 256), BitVec.ofNat 8 (opcode % 256)]

theorem bytes_of_word (a : Nat) (w : Word) : Line.bytes ⟨a, .inl w⟩ = bigEndian w.toNat := by
  have hhigh : w.extractLsb' 8 8 = BitVec.ofNat 8 (w.toNat / 256) := by
    apply BitVec.eq_of_toNat_eq
    rw [BitVec.extractLsb'_toNat, BitVec.toNat_ofNat, Nat.shiftRight_eq_div_pow]
  have hlow : w.nn = BitVec.ofNat 8 (w.toNat % 256) := by
    apply BitVec.eq_of_toNat_eq
    rw [Word.nn, BitVec.toNat_setWidth, BitVec.toNat_ofNat, Nat.mod_mod]
  simp only [Line.bytes, bigEndian, hhigh, hlow]

theorem length_linesFrom (address : Nat) (image : List Byte) :
    (linesFrom address image).length = (image.length + 1) / 2 := by
  fun_induction linesFrom address image with
  | case1 => rfl
  | case2 => simp
  | case3 address high low rest ih =>
    simp only [List.length_cons, ih]
    omega

theorem address_of_linesFrom {address i : Nat} {image : List Byte} {l : Line}
    (h : (linesFrom address image)[i]? = some l) : l.address = address + 2 * i := by
  fun_induction linesFrom address image generalizing i with
  | case1 => cases h
  | case2 address byte =>
    cases i with
    | zero =>
      cases h
      rfl
    | succ i => cases h
  | case3 address high low rest ih =>
    cases i with
    | zero =>
      cases h
      rfl
    | succ i =>
      rw [ih h]
      omega

theorem half_length (high low : Byte) (rest : List Byte) :
    (high :: low :: rest).length / 2 = rest.length / 2 + 1 := by
  simp only [List.length_cons]
  omega

/-- The lines that have two bytes are words. -/
theorem word_of_mem_take {address : Nat} {image : List Byte} {l : Line}
    (h : l ∈ (linesFrom address image).take (image.length / 2)) : ∃ w, l.code = .inl w := by
  fun_induction linesFrom address image with
  | case1 => cases h
  | case2 => simp at h
  | case3 address high low rest ih =>
    rw [half_length, List.take_succ_cons, List.mem_cons] at h
    rcases h with rfl | h
    · exact ⟨_, rfl⟩
    · exact ih h

/-- Behind the words of an image of odd length stands its last byte. -/
theorem drop_linesFrom {address : Nat} {image : List Byte} (h : image.length % 2 = 1) :
    ∃ a b, (linesFrom address image).drop (image.length / 2) = [⟨a, .inr b⟩] := by
  fun_induction linesFrom address image with
  | case1 => cases h
  | case2 address b => exact ⟨address, b, by simp⟩
  | case3 address high low rest ih =>
    simp only [List.length_cons] at h
    rw [half_length, List.drop_succ_cons]
    exact ih (by omega)

/-! ### The image of a listing -/

/-- A listing of an image: its lines lie back to back, those of two bytes are words, and one of a single
byte may follow. -/
structure Covers (image : List Byte) (listing : List ShownLine) : Prop where
  length : listing.length = (image.length + 1) / 2
  address : ∀ i l, listing[i]? = some l → l.address = 0x200 + 2 * i
  words : ∀ l ∈ listing.take (image.length / 2),
    l.opcode < 65536 ∧ l.text = Word.disassemble (BitVec.ofNat 16 l.opcode)
  even : image.length % 2 = 0 →
    (listing.take (image.length / 2)).flatMap (fun l => bigEndian l.opcode) = image
  odd : image.length % 2 = 1 → ∃ last, listing.getLast? = some last ∧
    last.opcode < 256 ∧ last.text = "DW 0x" ++ Numeral.upperHex 2 last.opcode ∧
    (listing.take (image.length / 2)).flatMap (fun l => bigEndian l.opcode)
      ++ [BitVec.ofNat 8 last.opcode] = image

theorem flatMap_bigEndian_take (address : Nat) (image : List Byte) :
    (((linesFrom address image).map Line.shown).take (image.length / 2)).flatMap
        (fun l => bigEndian l.opcode) =
      ((linesFrom address image).take (image.length / 2)).flatMap Line.bytes := by
  rw [← List.map_take, List.flatMap_map]
  refine List.flatMap_congr fun l hl => ?_
  obtain ⟨w, hw⟩ := word_of_mem_take hl
  obtain ⟨a, code⟩ := l
  cases hw
  exact (bytes_of_word a w).symm

theorem covers_lines (image : List Byte) : Covers image ((lines image).map Line.shown) where
  length := by rw [List.length_map, lines, length_linesFrom]
  address := by
    intro i l h
    rw [List.getElem?_map, Option.map_eq_some_iff] at h
    obtain ⟨line, hline, rfl⟩ := h
    exact address_of_linesFrom hline
  words := by
    intro l h
    rw [← List.map_take] at h
    obtain ⟨line, hline, rfl⟩ := List.mem_map.1 h
    obtain ⟨w, hw⟩ := word_of_mem_take hline
    obtain ⟨a, code⟩ := line
    cases hw
    refine ⟨w.isLt, ?_⟩
    simp only [Line.shown, Line.value, Line.text, BitVec.ofNat_toNat, BitVec.setWidth_eq]
  even := by
    intro h
    have hlength := length_linesFrom programStart image
    rw [lines, flatMap_bigEndian_take, List.take_of_length_le (by omega), bytes_linesFrom]
  odd := by
    intro h
    obtain ⟨a, b, hdrop⟩ := drop_linesFrom h
    have hsplit := List.take_append_drop (image.length / 2) (lines image)
    rw [lines, hdrop] at hsplit
    refine ⟨⟨a, b.toNat, b.disassemble⟩, ?_, b.isLt, rfl, ?_⟩
    · rw [lines, ← hsplit, List.map_append, List.map_singleton, List.getLast?_concat]
      rfl
    · have hbytes := bytes_lines image
      rw [lines, ← hsplit, List.flatMap_append, ← flatMap_bigEndian_take] at hbytes
      rw [BitVec.ofNat_toNat, BitVec.setWidth_eq]
      exact hbytes

namespace Covers

variable {p q : List Byte} {listing : List ShownLine}

/-- The text of the last line shows whether the image ends with a single byte. -/
theorem odd_of_odd (hp : Covers p listing) (hq : Covers q listing) (h : p.length % 2 = 1) :
    q.length % 2 = 1 := by
  by_contra hq0
  obtain ⟨last, hlast, hlt, htext, -⟩ := hp.odd h
  have hlength := hq.length
  have hmem : last ∈ listing.take (q.length / 2) := by
    rw [List.take_of_length_le (by omega)]
    exact List.mem_of_getLast? hlast
  have hbyte : Byte.disassemble (BitVec.ofNat 8 last.opcode) = last.text := by
    rw [htext, Byte.disassemble, Assembly.byte, Assembly.constant, BitVec.toNat_ofNat,
      Nat.mod_eq_of_lt hlt]
    rfl
  exact Word.disassemble_ne_byte _ _ ((hq.words last hmem).2.symm.trans hbyte.symm)

theorem unique (hp : Covers p listing) (hq : Covers q listing) : p = q := by
  have hlengths : p.length / 2 = q.length / 2 ∧ p.length % 2 = q.length % 2 := by
    have hpq := hp.odd_of_odd hq
    have hqp := hq.odd_of_odd hp
    have hlp := hp.length
    have hlq := hq.length
    omega
  obtain ⟨hhalf, hparity⟩ := hlengths
  rcases Nat.mod_two_eq_zero_or_one p.length with h | h
  · rw [← hp.even h, ← hq.even (hparity ▸ h), hhalf]
  · obtain ⟨last, hlast, -, -, hbytes⟩ := hp.odd h
    obtain ⟨last', hlast', -, -, hbytes'⟩ := hq.odd (hparity ▸ h)
    obtain rfl := Option.some.inj (hlast.symm.trans hlast')
    rw [← hbytes, ← hbytes', hhalf]

end Covers

end Listing

/-! ### The main statement -/

namespace Web

open Listing (Covers covers_lines)

/-- The program of the request is a text of the image. -/
def Framework.AsksFor (f : Framework) (body : Value) (image : List Byte) : Prop :=
  image.length ≤ 3584 ∧ ∃ text, f.receiveListing body = .valid text ∧
    Hex.Spells text.toList (image.flatMap Hex.nibbles)

theorem Framework.AsksFor.listingEndpoint {f : Framework} {body : Value} {image : List Byte}
    (h : f.AsksFor body image) : f.listingEndpoint body = .ok (Listing.lines image) := by
  obtain ⟨hsize, text, hbody, hspells⟩ := h
  have himage := decodeProgram_eq_ok_iff_spells.2 ⟨hsize, hspells⟩
  simp only [Framework.listingEndpoint, listProgram, hbody, himage]

/-- The listing that is answered covers every byte of the image once, and no other image has it. -/
theorem listing_covers_image (f : Framework) :
    (∀ (body : Value) (image : List Byte), f.AsksFor body image →
      ∃ listing, f.listingEndpoint body = .ok listing ∧
        Covers image (listing.map Listing.Line.shown)) ∧
    ∀ (body body' : Value) (p q : List Byte) (listing listing' : List Listing.Line),
      f.AsksFor body p → f.AsksFor body' q →
      f.listingEndpoint body = .ok listing → f.listingEndpoint body' = .ok listing' →
      listing.map Listing.Line.shown = listing'.map Listing.Line.shown → p = q := by
  constructor
  · intro body image h
    exact ⟨_, h.listingEndpoint, covers_lines image⟩
  · intro body body' p q listing listing' hp hq hlisting hlisting' hshown
    rw [hp.listingEndpoint] at hlisting
    rw [hq.listingEndpoint] at hlisting'
    cases hlisting
    cases hlisting'
    have hcovers := covers_lines p
    rw [hshown] at hcovers
    exact hcovers.unique (covers_lines q)

/-- Two texts of one image, and the image with a zero before its last byte: its lines have the same addresses
and opcodes. -/
theorem listing_covers_image_padded :
    let short : Value := .object [("program", .text "00E0 12")]
    let spaced : Value := .object [("program", .text "0\n0 e012")]
    let padded : Value := .object [("program", .text "00e00012")]
    let p : List Byte := [0x00, 0xE0, 0x12]
    let q : List Byte := [0x00, 0xE0, 0x00, 0x12]
    builtIn.AsksFor short p ∧ builtIn.AsksFor spaced ([0x00, 0xE0] ++ [0x12]) ∧
    builtIn.AsksFor padded q ∧ ∃ listing listing', builtIn.listingEndpoint short = .ok listing ∧
      builtIn.listingEndpoint spaced = .ok listing ∧
      builtIn.listingEndpoint padded = .ok listing' ∧ Covers p (listing.map Listing.Line.shown) ∧
      p = [0x00, 0xE0] ++ [0x12] ∧
      listing.map (fun l => (l.address, l.value)) = listing'.map (fun l => (l.address, l.value)) ∧
      listing.map Listing.Line.shown ≠ listing'.map Listing.Line.shown := by
  intro short spaced padded p q
  have hshort : builtIn.AsksFor short p := ⟨by decide, "00E0 12", rfl, Hex.spells_iff.2 (by decide)⟩
  have hspaced : builtIn.AsksFor spaced ([0x00, 0xE0] ++ [0x12]) :=
    ⟨by decide, "0\n0 e012", rfl, Hex.spells_iff.2 (by decide)⟩
  have hpadded : builtIn.AsksFor padded q :=
    ⟨by decide, "00e00012", rfl, Hex.spells_iff.2 (by decide)⟩
  have hlisting := hshort.listingEndpoint
  have hlisting' := hpadded.listingEndpoint
  have hagain : builtIn.listingEndpoint spaced = .ok (Listing.lines p) := hspaced.listingEndpoint
  obtain ⟨hcovers, hinj⟩ := listing_covers_image builtIn
  obtain ⟨listing, hl, hc⟩ := hcovers short p hshort
  cases hl.symm.trans hlisting
  refine ⟨hshort, hspaced, hpadded, Listing.lines p, Listing.lines q, hlisting, hagain, hlisting', hc,
    hinj _ _ _ _ _ _ hshort hspaced hlisting hagain rfl, by decide, fun hshown => ?_⟩
  have hpq := hinj short padded p q _ _ hshort hpadded hlisting hlisting' hshown
  exact absurd hpq (by decide)

end Web

end Chip8
