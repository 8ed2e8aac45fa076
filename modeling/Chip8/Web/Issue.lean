/-!
# Issues

What is wrong with a request: issues, each with the path to the value at fault. Data that was checked
is valid or has issues; checks that stand side by side are all carried out, and their issues are
listed in order. The main statement is `seq_valid_iff`.
-/

namespace Chip8.Web

/-! ### Issues -/

/-- A step down into a value. -/
inductive PathStep where
  | field (name : String)
  | item (index : Nat)
  deriving DecidableEq, Repr

/-- The steps from the outside to a value. -/
abbrev Path := List PathStep

inductive IssueKind where
  | missing
  | notText
  | notObject
  | notInteger
  | integerText
  | fraction
  | notBool
  | boolText
  | notList
  | tooSmall
  | tooLarge
  | pattern
  deriving DecidableEq, Repr

def IssueKind.name : IssueKind → String
  | missing => "missing"
  | notText => "string_type"
  | notObject => "model_attributes_type"
  | notInteger => "int_type"
  | integerText => "int_parsing"
  | fraction => "int_from_float"
  | notBool => "bool_type"
  | boolText => "bool_parsing"
  | notList => "list_type"
  | tooSmall => "greater_than_equal"
  | tooLarge => "less_than_equal"
  | pattern => "string_pattern_mismatch"

structure Issue where
  path : Path
  kind : IssueKind
  deriving DecidableEq, Repr

/-! ### Checked data -/

/-- Data that passed a check, or the issues that it raised. -/
inductive Checked (α : Type) where
  | valid (value : α)
  | invalid (issues : List Issue)

namespace Checked

variable {α β : Type}

def issue (path : Path) (kind : IssueKind) : Checked α := .invalid [⟨path, kind⟩]

/-- Both checks are carried out; the issues of the first come first. -/
def seq (f : Checked (α → β)) (a : Checked α) : Checked β :=
  match f, a with
  | valid f, valid a => valid (f a)
  | valid _, invalid later => invalid later
  | invalid first, valid _ => invalid first
  | invalid first, invalid later => invalid (first ++ later)

/-- The second check needs the data of the first. -/
def andThen (a : Checked α) (f : α → Checked β) : Checked β :=
  match a with
  | valid a => f a
  | invalid issues => invalid issues

instance : Applicative Checked where
  pure := valid
  seq f a := Checked.seq f (a ())

theorem seq_valid_iff {f : Checked (α → β)} {a : Checked α} {b : β} :
    f.seq a = valid b ↔ ∃ g x, f = valid g ∧ a = valid x ∧ g x = b := by
  cases f <;> cases a <;> simp [seq]

end Checked

end Chip8.Web
