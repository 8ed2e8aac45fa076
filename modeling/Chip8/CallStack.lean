import Chip8.Address

/-!
# The call stack

The return addresses of the calls in progress, at most sixteen. Only live entries are kept: a
return forgets its address. The main statements are `toList_push` and `toList_pop`.
-/

namespace Chip8

/-- Return addresses, the newest first. -/
structure CallStack where
  newestFirst : List Address
  length_le : newestFirst.length ≤ stackSize
  deriving DecidableEq

namespace CallStack

def empty : CallStack := ⟨[], by decide⟩

/-- The number of calls in progress. -/
def depth (s : CallStack) : Nat := s.newestFirst.length

/-- The return addresses, the oldest first. -/
def toList (s : CallStack) : List Address := s.newestFirst.reverse

/-- The stack with one more return address. -/
def push (s : CallStack) (a : Address) : Except Fault CallStack :=
  if h : s.depth < stackSize then .ok ⟨a :: s.newestFirst, h⟩ else .error .stackOverflow

/-- The newest return address and the stack without it. -/
def pop : CallStack → Except Fault (Address × CallStack)
  | ⟨[], _⟩ => .error .stackUnderflow
  | ⟨a :: rest, h⟩ => .ok (a, ⟨rest, Nat.le_of_succ_le h⟩)

theorem depth_le (s : CallStack) : s.depth ≤ stackSize := s.length_le

theorem length_toList (s : CallStack) : s.toList.length = s.depth := by
  simp [toList, depth]

theorem toList_push {s t : CallStack} {a : Address} (h : s.push a = .ok t) :
    t.toList = s.toList ++ [a] := by
  unfold push at h
  split at h
  · cases h
    simp [toList]
  · cases h

theorem toList_pop {s t : CallStack} {a : Address} (h : s.pop = .ok (a, t)) :
    s.toList = t.toList ++ [a] := by
  obtain ⟨l, hl⟩ := s
  cases l with
  | nil => cases h
  | cons b rest =>
    cases h
    simp [toList]

end CallStack

end Chip8
