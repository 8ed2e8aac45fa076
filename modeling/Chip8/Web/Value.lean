/-!
# Structured values

The values that requests are made of. A number is an integer scaled by a power of ten.
-/

namespace Chip8.Web

/-- A structured value. `number m k` is `m` divided by the `k`-th power of ten. -/
inductive Value where
  | null
  | bool (b : Bool)
  | number (mantissa : Int) (places : Nat)
  | text (s : String)
  | list (items : List Value)
  | object (fields : List (String × Value))
  deriving Inhabited

namespace Value

def scale (places : Nat) : Int := Nat.pow 10 places

/-- The integer that a number is, unless it has a fraction. -/
def integer? (mantissa : Int) (places : Nat) : Option Int :=
  if mantissa % scale places = 0 then some (mantissa / scale places) else none

/-- Is the integer one of the signed integers of 64 bits? -/
def fitsInt64 (v : Int) : Bool := -0x8000000000000000 ≤ v && v < 0x8000000000000000

theorem integer?_zero (m : Int) : integer? m 0 = some m := by
  have h : scale 0 = 1 := rfl
  rw [integer?, h, Int.emod_one, Int.ediv_one, if_pos rfl]

def field? (fields : List (String × Value)) (name : String) : Option Value := fields.lookup name

end Value

end Chip8.Web
