import Chip8.Web.Framework

/-!
# What is relied on

What the endpoints rely on in the framework before them. The data that it delivers say what the body
says, a field that the body does not give has the usual value of requests, numbers and policy are within
their limits, and a reply is sent with all fields of its declared form. How a value that is no number is
read as one, if it is, is left open (`Readers`). The main definition is `Framework.Lawful`.
-/

namespace Chip8.Web

/-! ### What a body gives -/

namespace Value

/-- The fields of an object; nothing else has any. -/
def fields : Value → List (String × Value)
  | .object fields => fields
  | _ => []

def text? : Value → Option String
  | .text s => some s
  | _ => none

end Value

/-- The option fields that a body gives. -/
def givenOptions (body : Value) : List (String × Value) :=
  match Value.field? body.fields "options" with
  | some options => options.fields
  | none => []

/-- What values are read as, where an integer or a truth value is declared. -/
structure Readers where
  integer : Value → Option Int
  truth : Value → Option Bool
  integer_number : ∀ n, integer (.number n 0) = some n
  truth_bool : ∀ b, truth (.bool b) = some b

namespace Readers

variable (r : Readers)

/-- An integer that may be null. -/
def integerOrNull : Value → Option (Option Int)
  | .null => some none
  | v => (r.integer v).map some

def integers : Value → Option (List Int)
  | .list items => items.mapM r.integer
  | _ => none

end Readers

/-- A value is what the field of a name is read as, or the usual one if the field is not given. -/
def Stated {α : Type} (given : List (String × Value)) (name : String) (read : Value → Option α)
    (usual value : α) : Prop :=
  match Value.field? given name with
  | some v => read v = some value
  | none => value = usual

theorem Stated.unique {α : Type} {given : List (String × Value)} {name : String}
    {read : Value → Option α} {usual value value' : α} (h : Stated given name read usual value)
    (h' : Stated given name read usual value') : value = value' := by
  unfold Stated at h h'
  cases hv : Value.field? given name with
  | none =>
    rw [hv] at h h'
    exact h.trans h'.symm
  | some v =>
    rw [hv] at h h'
    exact Option.some.inj (h.symm.trans h')

/-! ### Laws -/

section

variable (r : Readers)

/-- Options that say what the given fields say, and otherwise what is usual for a request. -/
structure Fills (given : List (String × Value)) (o : RequestOptions) : Prop where
  frequency : Stated given "frequency_hz" r.integer ({} : RequestOptions).frequency o.frequency
  maxSteps : Stated given "max_steps" r.integer ({} : RequestOptions).maxSteps o.maxSteps
  legacyShift : Stated given "legacy_shift" r.truth ({} : RequestOptions).legacyShift o.legacyShift
  spriteWrap : Stated given "sprite_wrap" r.truth ({} : RequestOptions).spriteWrap o.spriteWrap
  unknownInstruction : Stated given "unknown_instruction" Value.text?
    ({} : RequestOptions).unknownInstruction o.unknownInstruction
  stopOnSelfJump : Stated given "stop_on_self_jump" r.truth ({} : RequestOptions).stopOnSelfJump
    o.stopOnSelfJump
  randomSeed : Stated given "random_seed" r.integerOrNull ({} : RequestOptions).randomSeed o.randomSeed
  keysDown : Stated given "keys_down" r.integers ({} : RequestOptions).keysDown o.keysDown
  trace : Stated given "trace" r.truth ({} : RequestOptions).trace o.trace
  traceRegisters : Stated given "trace_include_registers" r.truth
    ({} : RequestOptions).traceRegisters o.traceRegisters

/-- The options that a body has. -/
inductive OptionsOf (body : Value) : Option RequestOptions → Prop
  | missing (h : Value.field? body.fields "options" = none) : OptionsOf body none
  | null (h : Value.field? body.fields "options" = some .null) : OptionsOf body none
  | given {fields : List (String × Value)} {o : RequestOptions}
    (h : Value.field? body.fields "options" = some (.object fields)) (ho : Fills r fields o) :
    OptionsOf body (some o)

end

/-- The limits of what a request may ask for. -/
structure RequestOptions.InLimits (o : RequestOptions) : Prop where
  frequency : 1 ≤ o.frequency ∧ o.frequency ≤ 1000000
  maxSteps : 1 ≤ o.maxSteps ∧ o.maxSteps ≤ 1000000
  policy : o.unknownInstruction = "halt" ∨ o.unknownInstruction = "skip"

/-- The usual options are within the limits. -/
theorem RequestOptions.inLimits_usual : ({} : RequestOptions).InLimits :=
  ⟨by decide, by decide, .inl rfl⟩

/-- What is relied on in a framework that reads values as the readers do. -/
structure Framework.Lawful (f : Framework) (r : Readers) : Prop where
  program : ∀ body request, f.receiveRun body = .valid request →
    Value.field? body.fields "program" = some (.text request.program)
  options : ∀ body request, f.receiveRun body = .valid request → OptionsOf r body request.options
  limits : ∀ body request o, f.receiveRun body = .valid request → request.options = some o →
    o.InLimits
  send : ∀ reply : RunReply, f.send reply.dictionary = some reply.body

namespace Framework.Lawful

variable {f : Framework} {r : Readers} {body : Value} {request : RunRequest}

theorem inLimits (hf : f.Lawful r) (h : f.receiveRun body = .valid request) :
    request.chosen.InLimits := by
  unfold RunRequest.chosen
  cases ho : request.options with
  | none => exact RequestOptions.inLimits_usual
  | some o => exact hf.limits body request o h ho

end Framework.Lawful

end Chip8.Web
