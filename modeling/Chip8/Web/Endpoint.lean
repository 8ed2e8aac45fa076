import Chip8.Web.Framework
import Chip8.Web.Validation

/-!
# Endpoints

A framework at hand, `builtIn`, and the endpoints behind it. It serves to run them; what they rely on
is `Framework.Lawful`, which says less. Unknown fields of a request are ignored. The program is checked
before the options and the options in the order of their declaration.
-/

namespace Chip8.Web

/-! ### Requests -/

/-- The options of a request. A field that is absent has its usual value. -/
def checkOptions : Check RequestOptions := Check.object fun path fields =>
  let defaults : RequestOptions := {}
  let field {α : Type} (name : String) (default : α) (check : Check α) : Checked α :=
    Check.withDefault default check path fields name
  RequestOptions.mk
    <$> field "frequency_hz" defaults.frequency (Check.upTo requestLimit)
    <*> field "max_steps" defaults.maxSteps (Check.upTo requestLimit)
    <*> field "legacy_shift" defaults.legacyShift Check.bool
    <*> field "sprite_wrap" defaults.spriteWrap Check.bool
    <*> field "unknown_instruction" defaults.unknownInstruction (Check.oneOf ["halt", "skip"])
    <*> field "stop_on_self_jump" defaults.stopOnSelfJump Check.bool
    <*> field "random_seed" defaults.randomSeed (Check.optional Check.integer)
    <*> field "keys_down" defaults.keysDown (Check.list Check.integer)
    <*> field "trace" defaults.trace Check.bool
    <*> field "trace_include_registers" defaults.traceRegisters Check.bool

def checkRunRequest : Check RunRequest := Check.object fun path fields =>
  RunRequest.mk
    <$> Check.required Check.text path fields "program"
    <*> Check.withDefault none (Check.optional checkOptions) path fields "options"

/-- The program text of a request for a listing. -/
def checkListingRequest : Check String := Check.object fun path fields =>
  Check.required Check.text path fields "program"

/-! ### Replies -/

/-- A dictionary, whatever its fields. -/
def Check.dictionary : Check (List (String × Value)) :=
  Check.object fun _ fields => .valid fields

/-- The reply that a dictionary stands for. -/
def checkReply : Check RunReply := Check.object fun path fields =>
  RunReply.mk
    <$> Check.required Check.text path fields "status"
    <*> Check.required Check.text path fields "stop_reason"
    <*> Check.required Check.integer path fields "steps_executed"
    <*> Check.required Check.dictionary path fields "final_state"
    <*> Check.required (Check.list Check.text) path fields "screen"
    <*> Check.required Check.bool path fields "beeping"
    <*> Check.required (Check.list Check.dictionary) path fields "trace"
    <*> Check.withDefault none (Check.optional Check.dictionary) path fields "error"

/-! ### The endpoints -/

def builtIn : Framework where
  receiveRun := checkRunRequest [.field "body"]
  receiveListing := checkListingRequest [.field "body"]
  send fields :=
    match checkReply [.field "response"] (.object fields) with
    | .valid reply => some reply.body
    | .invalid _ => none

def runEndpoint (unseeded : Twister) (body : Value) : Response Run.Outcome :=
  builtIn.runEndpoint unseeded body

def sendResult (outcome : Run.Outcome) : Response Value := builtIn.sendResult outcome

def listingEndpoint (body : Value) : Response (List Listing.Line) := builtIn.listingEndpoint body

end Chip8.Web
