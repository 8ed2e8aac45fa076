import Chip8.UsageError
import Chip8.Word

/-!
# The keypad

Sixteen keys, each down or up. The first key of a keypad is the lowest that is down.
-/

namespace Chip8

/-- One of the keys 0 to F. -/
abbrev Key := Fin 16

namespace Key

/-- The key of a number from 0 to 15. -/
def ofInt? (key : Int) : Except UsageError Key :=
  match nibbleOfInt? key with
  | some k => .ok k
  | none => .error (.keyOutOfRange key)

/-- The key that the low nibble of a number names. -/
def ofNibble (v : Int) : Key := ⟨(v % 16).toNat, by omega⟩

end Key

/-- Which keys are down. -/
abbrev Keypad := Vector Bool 16

namespace Keypad

def released : Keypad := Vector.replicate 16 false

def isDown (pad : Keypad) (k : Key) : Bool := pad[k]

/-- The keypad with one key pressed or released. -/
def setKey (pad : Keypad) (k : Key) (down : Bool) : Keypad := pad.set k down

/-- The lowest key that is down. -/
def first? (pad : Keypad) : Option Key := (List.finRange 16).find? pad.isDown

theorem isDown_setKey (pad : Keypad) (k j : Key) (down : Bool) :
    (pad.setKey k down).isDown j = if k = j then down else pad.isDown j := by
  simp [isDown, setKey, Vector.getElem_set, Fin.ext_iff]

end Keypad

end Chip8
