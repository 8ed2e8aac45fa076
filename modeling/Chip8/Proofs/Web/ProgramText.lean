import Chip8.Proofs.Text.Hex
import Chip8.Web.Framework
import Mathlib.Logic.Basic

/-!
# Program texts

Which texts a host may send as a program, and what it is told about the others. A text is judged by the
characters that are not blank: by their being digits, whatever their number, and then by their number. The
main statement is `program_text_judged`.
-/

namespace Chip8.Web

open Hex (IsDigit Spells nibbles)

/-! ### Decoding -/

/-- How the decoding of a text can end. -/
inductive Reading (text : String) : Except TextError (List Byte) → Prop
  | accepted {image : List Byte} (hread : Hex.decode? (withoutBlanks text) = some image)
    (hsize : image.length ≤ 3584) : Reading text (.ok image)
  | tooLarge {image : List Byte} (hread : Hex.decode? (withoutBlanks text) = some image)
    (hsize : 3584 < image.length) : Reading text (.error .tooLarge)
  | notHex (hread : Hex.decode? (withoutBlanks text) = none) : Reading text (.error .notHex)

theorem reading (text : String) : Reading text (decodeProgram text) := by
  unfold decodeProgram
  cases hread : Hex.decode? (withoutBlanks text) with
  | none => exact .notHex hread
  | some image =>
    by_cases hsize : image.length ≤ maxProgramSize
    · simp only [if_pos hsize]
      exact .accepted hread hsize
    · simp only [if_neg hsize]
      exact .tooLarge hread (Nat.lt_of_not_le hsize)

variable {text : String} {image : List Byte}

theorem decodeProgram_eq_iff {result : Except TextError (List Byte)} :
    decodeProgram text = result ↔ Reading text result := by
  constructor
  · rintro rfl
    exact reading text
  · intro h
    unfold decodeProgram
    cases h with
    | accepted hread hsize =>
      rw [hread]
      exact if_pos hsize
    | tooLarge hread hsize =>
      rw [hread]
      exact if_neg (Nat.not_le_of_lt hsize)
    | notHex hread => rw [hread]

theorem decodeProgram_eq_ok_iff : decodeProgram text = .ok image ↔
    Hex.decode? (withoutBlanks text) = some image ∧ image.length ≤ 3584 := by
  rw [decodeProgram_eq_iff]
  exact ⟨fun | .accepted hread hsize => ⟨hread, hsize⟩, fun h => .accepted h.1 h.2⟩

theorem decodeProgram_eq_tooLarge_iff : decodeProgram text = .error .tooLarge ↔
    ∃ image, Hex.decode? (withoutBlanks text) = some image ∧ 3584 < image.length := by
  rw [decodeProgram_eq_iff]
  exact ⟨fun | .tooLarge hread hsize => ⟨_, hread, hsize⟩, fun ⟨_, hread, hsize⟩ => .tooLarge hread hsize⟩

theorem decodeProgram_eq_notHex_iff : decodeProgram text = .error .notHex ↔
    Hex.decode? (withoutBlanks text) = none := by
  rw [decodeProgram_eq_iff]
  exact ⟨fun | .notHex hread => hread, .notHex⟩

/-- The accepted texts are those that spell the digits of their image. -/
theorem decodeProgram_eq_ok_iff_spells : decodeProgram text = .ok image ↔
    image.length ≤ 3584 ∧ Spells text.toList (image.flatMap nibbles) := by
  rw [decodeProgram_eq_ok_iff, Hex.decode?_eq_some_iff, withoutBlanks, ← Hex.spells_iff, and_comm]

theorem image_eq_iff {other : String} {image' : List Byte} (h : decodeProgram text = .ok image)
    (h' : decodeProgram other = .ok image') : image = image' ↔
      (withoutBlanks text).map Char.toLower = (withoutBlanks other).map Char.toLower := by
  rw [Hex.map_toLower_of_decode? (decodeProgram_eq_ok_iff.1 h).1,
    Hex.map_toLower_of_decode? (decodeProgram_eq_ok_iff.1 h').1]
  constructor
  · intro himage
    rw [himage]
  · intro hdigits
    exact Hex.encode_inj (String.toList_inj.1 hdigits)

/-! ### Answers -/

/-- Behind every framework both endpoints answer requests with the program text with status 400 and the
detail. -/
structure AnsweredWith (text detail : String) : Prop where
  run : ∀ (f : Framework) unseeded body request, f.receiveRun body = .valid request →
    request.program = text →
    f.answerRun unseeded body = .refused detail ∧ (f.answerRun unseeded body).status = 400
  listing : ∀ (f : Framework) body, f.receiveListing body = .valid text →
    f.listingEndpoint body = .refused detail ∧ (f.listingEndpoint body).status = 400

theorem answeredWith {e : TextError} (h : decodeProgram text = .error e) :
    AnsweredWith text e.message where
  run := by
    intro f unseeded body request hrequest htext
    have hanswer : f.answerRun unseeded body = .refused e.message := by
      simp only [Framework.answerRun, Framework.runEndpoint, hrequest, runProgram, htext, h]
      rfl
    rw [hanswer]
    exact ⟨rfl, rfl⟩
  listing := by
    intro f body hbody
    have hanswer : f.listingEndpoint body = .refused e.message := by
      simp only [Framework.listingEndpoint, listProgram, hbody, h]
    rw [hanswer]
    exact ⟨rfl, rfl⟩

/-! ### The main statement -/

/-- How a text is judged by its characters that are not blank. -/
structure Judged (text : String) : Prop where
  accepted : (∃ image, decodeProgram text = .ok image) ↔
    (∀ c ∈ withoutBlanks text, IsDigit c) ∧ ∃ k ≤ 3584, (withoutBlanks text).length = 2 * k
  /-- The image is the one whose digits these are. -/
  image : ∀ image, decodeProgram text = .ok image →
    (withoutBlanks text).length = 2 * image.length ∧
    (withoutBlanks text).map Char.toLower = (Hex.encode image).toList
  notHex : decodeProgram text = .error .notHex ↔
    (∃ c ∈ withoutBlanks text, ¬ IsDigit c) ∨ (withoutBlanks text).length % 2 = 1
  tooLarge : decodeProgram text = .error .tooLarge ↔
    (∀ c ∈ withoutBlanks text, IsDigit c) ∧ ∃ k > 3584, (withoutBlanks text).length = 2 * k
  notHexAnswer : decodeProgram text = .error .notHex →
    AnsweredWith text "Program must be hexadecimal bytes"
  tooLargeAnswer : decodeProgram text = .error .tooLarge →
    AnsweredWith text "Program size exceeds limit of 3584 bytes"

theorem exists_decode?_iff (cs : List Char) (p : Nat → Prop) :
    (∃ image, Hex.decode? cs = some image ∧ p image.length) ↔
      (∀ c ∈ cs, IsDigit c) ∧ ∃ k, p k ∧ cs.length = 2 * k := by
  constructor
  · rintro ⟨image, hread, hp⟩
    have hdigits := Hex.isDigit_of_map_digit? (Hex.decode?_eq_some_iff.1 hread)
    exact ⟨hdigits, image.length, hp, Hex.length_of_decode? hread⟩
  · rintro ⟨hdigits, k, hp, hlength⟩
    obtain ⟨image, hread⟩ := Option.isSome_iff_exists.1
      (Hex.isSome_decode?_iff.2 ⟨hdigits, by omega⟩)
    have hk : image.length = k := by
      have hlength' := Hex.length_of_decode? hread
      omega
    exact ⟨image, hread, hk ▸ hp⟩

theorem judged (text : String) : Judged text where
  accepted := by
    simp only [decodeProgram_eq_ok_iff]
    exact exists_decode?_iff (withoutBlanks text) (· ≤ 3584)
  image := by
    intro image h
    have hread := (decodeProgram_eq_ok_iff.1 h).1
    exact ⟨Hex.length_of_decode? hread, Hex.map_toLower_of_decode? hread⟩
  notHex := by
    rw [decodeProgram_eq_notHex_iff, ← Option.not_isSome_iff_eq_none, Hex.isSome_decode?_iff, not_and_or,
      Nat.mod_two_not_eq_zero]
    simp only [not_forall, exists_prop]
  tooLarge := by
    rw [decodeProgram_eq_tooLarge_iff]
    exact exists_decode?_iff (withoutBlanks text) (3584 < ·)
  notHexAnswer := answeredWith
  tooLargeAnswer := answeredWith

/-- A program text is accepted just when an even number of digits, at most 7168 of them, is left without
its blanks; what is not hexadecimal is refused as such whatever its length. An image is read from the texts
that spell it, with letters of either case and blanks anywhere, and from no text with other digits. -/
theorem program_text_judged :
    (∀ text, Judged text) ∧
    (∀ (text : String) (image : List Byte), decodeProgram text = .ok image ↔
      image.length ≤ 3584 ∧ Spells text.toList (image.flatMap nibbles)) ∧
    ∀ (s t : String) (p q : List Byte), decodeProgram s = .ok p → decodeProgram t = .ok q →
      (p = q ↔ (withoutBlanks s).map Char.toLower = (withoutBlanks t).map Char.toLower) :=
  ⟨judged, fun _ _ => decodeProgram_eq_ok_iff_spells, fun _ _ _ _ => image_eq_iff⟩

/-- An em space splits a byte; the full-width six is no digit; 3585 bytes are one too many. -/
theorem program_text_judged_spaced :
    let image : List Byte := [0x6A, 0x05]
    let spaced := "6\u2003A 0\t5"
    let wide := "\uFF16a05"
    let long := String.ofList (List.replicate 7170 '0')
    (image.length ≤ 3584 ∧ Spells spaced.toList (image.flatMap nibbles) ∧
      decodeProgram spaced = .ok image) ∧
    (decodeProgram "6a05" = .ok image ∧
      (withoutBlanks spaced).map Char.toLower = (withoutBlanks "6a05").map Char.toLower) ∧
    (decodeProgram wide = .error .notHex ∧ AnsweredWith wide "Program must be hexadecimal bytes") ∧
    decodeProgram long = .error .tooLarge ∧
      AnsweredWith long "Program size exceeds limit of 3584 bytes" := by
  intro image spaced wide long
  obtain ⟨hjudged, hback, hsame⟩ := program_text_judged
  have hspells : Spells spaced.toList (image.flatMap nibbles) := Hex.spells_iff.2 (by decide)
  have hspaced := (hback spaced image).2 ⟨by decide, hspells⟩
  have hplain : decodeProgram "6a05" = .ok image := rfl
  have hwide : decodeProgram wide = .error .notHex :=
    (hjudged wide).notHex.2 (.inl ⟨Char.ofNat 0xFF16, by decide, by decide⟩)
  have hdigits : withoutBlanks long = List.replicate 7170 '0' := by
    rw [withoutBlanks, String.toList_ofList, List.filter_replicate_of_pos (by decide)]
  have hlong : decodeProgram long = .error .tooLarge := by
    refine (hjudged long).tooLarge.2 ⟨fun c hc => ?_, 3585, by decide, ?_⟩
    · rw [hdigits] at hc
      rw [List.eq_of_mem_replicate hc]
      decide
    · rw [hdigits, List.length_replicate]
  exact ⟨⟨by decide, hspells, hspaced⟩, ⟨hplain, (hsame spaced "6a05" _ _ hspaced hplain).1 rfl⟩,
    ⟨hwide, (hjudged wide).notHexAnswer hwide⟩, hlong, (hjudged long).tooLargeAnswer hlong⟩

end Chip8.Web
