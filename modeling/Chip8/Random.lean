/-!
# Sources of random numbers

The machine draws numbers from a source one at a time and keeps the low bits it needs. A source
may be a generator or a list that repeats.
-/

namespace Chip8

/-- A state from which the next number is drawn, together with the state that follows. -/
class RandomSource (ρ : Type) where
  next : ρ → Int × ρ

namespace RandomSource

variable {ρ : Type} [RandomSource ρ]

/-- The source after a number of draws. -/
def after (source : ρ) : Nat → ρ
  | 0 => source
  | n + 1 => after (next source).2 n

/-- The `i`-th number that a source gives, counted from 0. -/
def stream (source : ρ) (i : Nat) : Int := (next (after source i)).1

/-- The first numbers of a source. -/
def take (source : ρ) : Nat → List Int
  | 0 => []
  | n + 1 => let (v, source) := next source; v :: take source n

theorem after_add (source : ρ) (m n : Nat) : after (after source m) n = after source (m + n) := by
  induction m generalizing source with
  | zero => simp [after]
  | succ m ih => rw [after, ih, Nat.add_right_comm, after]

end RandomSource

/-! ### Repeating lists -/

/-- Numbers given out in order, again and again. -/
structure Cycle where
  values : Array Int
  position : Nat := 0

namespace Cycle

/-- The number at the current position; an empty list gives zeros. -/
def current (c : Cycle) : Int := c.values[c.position % c.values.size]?.getD 0

instance : RandomSource Cycle where
  next c := (c.current, { c with position := c.position + 1 })

end Cycle

end Chip8
