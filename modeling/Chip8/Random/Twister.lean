import Chip8.Random

/-!
# The Mersenne twister

The generator MT19937: 624 words of 32 bits, renewed all at once when they are used up, and a
tempering of each word as it is given out. A seed is an integer of any size; its magnitude is
cut into 32-bit words, lowest first, which are mixed into the state of a fixed first seed. A
draw gives the top eight bits of one output. The main statement is `seeded_neg`: a seed and its
negation start the same sequence.
-/

namespace Chip8

/-- The words of the generator and the place of the next one to give out. -/
structure Twister where
  words : Vector UInt32 624
  next : Nat

namespace Twister

/-! ### Seeding -/

/-- The 32-bit words of a number, lowest first; zero has the single word 0. -/
def seedWords (n : Nat) : List UInt32 :=
  if n < 0x100000000 then [UInt32.ofNat n] else UInt32.ofNat n :: seedWords (n / 0x100000000)
termination_by n
decreasing_by omega

/-- The next place in a seeding pass. Place 0 is passed over: after the last place it takes
over the last word, and the pass goes on at place 1. -/
def advance (words : Vector UInt32 624) (i : Fin 624) : Vector UInt32 624 × Fin 624 :=
  if i = 623 then (words.set 0 words[623], 1) else (words, i + 1)

/-- The word before place `i`, mixed with itself. -/
def folded (words : Vector UInt32 624) (i : Fin 624) : UInt32 :=
  words[i - 1] ^^^ (words[i - 1] >>> 30)

/-- The words from place `i` on filled from the one before by a linear recurrence. -/
def fill : Nat → Fin 624 → Vector UInt32 624 → Vector UInt32 624
  | 0, _, words => words
  | n + 1, i, words =>
    fill n (i + 1) (words.set i (1812433253 * folded words i + UInt32.ofNat i.val))

/-- The state that a single word seeds. -/
def ofWord (seed : UInt32) : Vector UInt32 624 :=
  fill 623 1 ((Vector.replicate 624 0).set 0 seed)

/-- Mixes the words of a key into the state, beginning the key again when it ends. -/
def mixKey (key : Array UInt32) :
    Nat → Nat → Fin 624 → Vector UInt32 624 → Vector UInt32 624 × Fin 624
  | 0, _, i, words => (words, i)
  | n + 1, j, i, words =>
    let word := (words[i] ^^^ folded words i * 1664525) + key[j]?.getD 0 + UInt32.ofNat j
    let (words, i) := advance (words.set i word) i
    mixKey key n (if j + 1 < key.size then j + 1 else 0) i words

/-- Mixes each word with the one before and with its place. -/
def mixPlaces : Nat → Fin 624 → Vector UInt32 624 → Vector UInt32 624
  | 0, _, words => words
  | n + 1, i, words =>
    let word := (words[i] ^^^ folded words i * 1566083941) - UInt32.ofNat i.val
    let (words, i) := advance (words.set i word) i
    mixPlaces n i words

/-- The state that a key of several words seeds. -/
def ofKey (key : Array UInt32) : Vector UInt32 624 :=
  let (words, i) := mixKey key (max 624 key.size) 0 1 (ofWord 19650218)
  (mixPlaces 623 i words).set 0 0x80000000

/-- The generator of an integer seed. -/
def seeded (seed : Int) : Twister := ⟨ofKey (seedWords seed.natAbs).toArray, 624⟩

theorem seeded_neg (seed : Int) : seeded (-seed) = seeded seed := by
  simp [seeded]

/-! ### Drawing -/

/-- One word renewed from itself, its successor and the word 397 places on. -/
def renewWord (words : Vector UInt32 624) (i : Fin 624) : Vector UInt32 624 :=
  let joined := (words[i] &&& 0x80000000) ||| (words[i + 1] &&& 0x7FFFFFFF)
  let twist : UInt32 := if joined &&& 1 = 0 then 0 else 0x9908B0DF
  words.set i (words[i + 397] ^^^ (joined >>> 1) ^^^ twist)

/-- All words renewed in place, first to last. -/
def renew (words : Vector UInt32 624) : Vector UInt32 624 :=
  (List.finRange 624).foldl renewWord words

/-- The word that is given out for a word of the state. -/
def temper (word : UInt32) : UInt32 :=
  let a := word ^^^ (word >>> 11)
  let b := a ^^^ ((a <<< 7) &&& 0x9D2C5680)
  let c := b ^^^ ((b <<< 15) &&& 0xEFC60000)
  c ^^^ (c >>> 18)

def nextWord (t : Twister) : UInt32 × Twister :=
  if h : t.next < 624 then (temper t.words[t.next], { t with next := t.next + 1 })
  else
    let words := renew t.words
    (temper words[0], ⟨words, 1⟩)

instance : RandomSource Twister where
  next t :=
    let (word, t) := t.nextWord
    ((word >>> 24).toNat, t)

end Twister

end Chip8
