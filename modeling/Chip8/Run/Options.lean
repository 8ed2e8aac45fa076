import Chip8.Machine
import Chip8.Random.Twister

/-!
# Options of a run

Options come from a host unchecked: the policy is a text and the keys are integers. `Rules` are
what a run consults at every step, and `Options.machine?` builds the machine that it starts
with.
-/

namespace Chip8.Run

/-- What a host chooses for a run. -/
structure Options where
  frequency : Int := 700
  maxSteps : Int := 10000
  legacyShift : Bool := false
  spriteWrap : Bool := false
  unknownInstruction : String := "halt"
  stopOnSelfJump : Bool := true
  randomSeed : Option Int := none
  keysDown : List Int := []
  trace : Bool := false
  traceRegisters : Bool := false
  deriving DecidableEq, Repr

/-- What a run does on a word that stands for no instruction. -/
inductive Policy where
  | halt
  | skip
  deriving DecidableEq, Repr

def Policy.ofName? (text : String) : Except UsageError Policy :=
  if text = "halt" then .ok .halt
  else if text = "skip" then .ok .skip
  else .error (.unknownPolicy text)

/-- What a run consults at every step. -/
structure Rules where
  policy : Policy
  stopOnSelfJump : Bool
  trace : Bool
  traceRegisters : Bool
  deriving DecidableEq, Repr

namespace Options

def rules? (o : Options) : Except UsageError Rules := do
  let policy ← Policy.ofName? o.unknownInstruction
  return ⟨policy, o.stopOnSelfJump, o.trace, o.traceRegisters⟩

def edgeMode (o : Options) : EdgeMode := if o.spriteWrap then .wrap else .clip

/-- The source of random numbers, which without a seed is one that the system has seeded. -/
def sourceOr (o : Options) (unseeded : Twister) : Twister :=
  match o.randomSeed with
  | some seed => Twister.seeded seed
  | none => unseeded

/-- A machine on a source of random numbers, with the keys down that the options name. -/
def machineOn? {ρ : Type} (o : Options) (source : ρ) (p : Program) :
    Except UsageError (Machine ρ) :=
  o.keysDown.foldlM Machine.press
    (Machine.powerOn p (.ofLegacyShift o.legacyShift) o.frequency o.edgeMode source)

def machine? (o : Options) (unseeded : Twister) (p : Program) :
    Except UsageError (Machine Twister) :=
  o.machineOn? (o.sourceOr unseeded) p

end Options

end Chip8.Run
