import Chip8.Run.Options

/-!
# Requests

The requests to run a program. A request has options of its own, with their own usual values, which are
copied one by one into the options of a run.
-/

namespace Chip8.Web

/-- What a request may ask of a run. -/
structure RequestOptions where
  frequency : Int := 700
  maxSteps : Int := 10000
  legacyShift : Bool := false
  spriteWrap : Bool := false
  unknownInstruction : String := "halt"
  stopOnSelfJump : Bool := true
  randomSeed : Option Int := none
  keysDown : List Int := []
  trace : Bool := false
  traceRegisters : Bool := false
  deriving DecidableEq, Repr

/-- The options handed to the run. -/
def RequestOptions.runOptions (o : RequestOptions) : Run.Options where
  frequency := o.frequency
  maxSteps := o.maxSteps
  legacyShift := o.legacyShift
  spriteWrap := o.spriteWrap
  unknownInstruction := o.unknownInstruction
  stopOnSelfJump := o.stopOnSelfJump
  randomSeed := o.randomSeed
  keysDown := o.keysDown
  trace := o.trace
  traceRegisters := o.traceRegisters

structure RunRequest where
  program : String
  options : Option RequestOptions := none

/-- The options that are in force, which are the usual ones when the request has none. -/
def RunRequest.chosen (request : RunRequest) : RequestOptions := request.options.getD {}

/-- The largest clock rate and the largest number of steps that a request may ask for. -/
def requestLimit : Int := 1000000

end Chip8.Web
