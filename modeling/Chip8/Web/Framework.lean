import Chip8.Listing
import Chip8.Web.Issue
import Chip8.Web.ProgramText
import Chip8.Web.Reply
import Chip8.Web.Request

/-!
# Endpoints behind a framework

What is answered to a request. Between the hosts and the endpoints stands a framework, which is not
part of the library: it reads the bodies of requests and writes those of replies. A body with issues
is answered with them. A valid one is answered with a refusal when the program is no program or a key
is no key, the program being judged first, and otherwise with the reply of a run.
-/

namespace Chip8.Web

/-! ### Answers -/

inductive Response (α : Type) where
  | ok (body : α)
  | refused (detail : String)
  | invalid (issues : List Issue)
  | failed (detail : String)

def Response.status {α : Type} : Response α → Nat
  | ok _ => 200
  | refused _ => 400
  | invalid _ => 422
  | failed _ => 500

/-- Goes on with the body of a successful answer. -/
def Response.andThen {α β : Type} (response : Response α) (f : α → Response β) : Response β :=
  match response with
  | ok body => f body
  | refused detail => refused detail
  | invalid issues => invalid issues
  | failed detail => failed detail

/-! ### Checked requests -/

/-- Is the number no key? -/
def isBadKey (key : Int) : Bool := key < 0 || 15 < key

/-- Runs the program of a checked request. A request without a seed runs on the given source. -/
def runProgram (unseeded : Twister) (request : RunRequest) : Response Run.Outcome :=
  match decodeProgram request.program with
  | .error e => .refused e.message
  | .ok image =>
    match request.chosen.keysDown.find? isBadKey with
    | some key => .refused ("Invalid key: " ++ toString key)
    | none =>
      match Run.run image request.chosen.runOptions unseeded with
      | .ok outcome => .ok outcome
      | .error e => .failed e.message

def listProgram (program : String) : Response (List Listing.Line) :=
  match decodeProgram program with
  | .error e => .refused e.message
  | .ok image => .ok (Listing.lines image)

/-! ### The framework -/

/-- How the bodies of the two requests are read, and how a dictionary is written as the body of a
reply, if it has the declared form. -/
structure Framework where
  receiveRun : Value → Checked RunRequest
  receiveListing : Value → Checked String
  send : List (String × Value) → Option Value

namespace Framework

variable (f : Framework)

/-- Runs a program; the outcome still has its events. -/
def runEndpoint (unseeded : Twister) (body : Value) : Response Run.Outcome :=
  match f.receiveRun body with
  | .invalid issues => .invalid issues
  | .valid request => runProgram unseeded request

def sendResult (outcome : Run.Outcome) : Response Value :=
  match f.send (resultFields outcome.result) with
  | some body => .ok body
  | none => .failed "Internal Server Error"

/-- The answer to a request to run a program. -/
def answerRun (unseeded : Twister) (body : Value) : Response Value :=
  (f.runEndpoint unseeded body).andThen f.sendResult

def listingEndpoint (body : Value) : Response (List Listing.Line) :=
  match f.receiveListing body with
  | .invalid issues => .invalid issues
  | .valid program => listProgram program

end Framework

end Chip8.Web
