import Chip8.Run.Result
import Chip8.Web.Value

/-!
# Replies

Results as structured values, and the reply to a run. A result is a dictionary in which an error
stands only if there is one. The reply has a declared form, in which an error that is absent is null.
-/

namespace Chip8.Web

namespace Value

def integer (n : Int) : Value := .number n 0

def naturals (ns : List Nat) : Value := .list (ns.map fun (n : Nat) => integer n)

def texts (lines : List String) : Value := .list (lines.map text)

def objects (items : List (List (String × Value))) : Value := .list (items.map object)

/-- A value that may be absent. -/
def orNull {α : Type} (f : α → Value) : Option α → Value
  | some a => f a
  | none => .null

end Value

/-! ### Results as dictionaries -/

def summaryFields (s : State.Summary) : List (String × Value) :=
  [("pc", .integer s.pc), ("index", .integer s.index), ("sp", .integer s.depth),
    ("stack", .naturals s.stack), ("delay_timer", .integer s.delayTimer),
    ("sound_timer", .integer s.soundTimer), ("registers", .naturals s.registers)]

def traceRowFields (r : Run.TraceRow) : List (String × Value) :=
  [("step", .integer r.step), ("addr", .integer r.address), ("opcode", .integer r.word.toNat),
    ("instr_text", .text r.text), ("index", .integer r.index)]
    ++ (r.registers.map fun values => ("registers", Value.naturals values)).toList

def diagnosticFields (d : Diagnostic) : List (String × Value) :=
  [("type", .text d.category.name), ("message", .text d.message), ("step", .integer d.step),
    ("addr", .integer d.address), ("opcode", .orNull Value.integer d.word)]

/-- A result without a final state has an empty dictionary for it. -/
def finalStateFields : Option State.Summary → List (String × Value)
  | some s => summaryFields s
  | none => []

def resultFields (r : Run.Result) : List (String × Value) :=
  [("status", .text r.status), ("stop_reason", .text r.reason.name),
    ("steps_executed", .integer r.steps), ("final_state", .object (finalStateFields r.finalState)),
    ("screen", .texts r.screen), ("beeping", .bool r.beeping),
    ("trace", .objects (r.trace.map traceRowFields))]
    ++ (r.error.map fun d => ("error", Value.object (diagnosticFields d))).toList

/-! ### The declared form -/

structure RunReply where
  status : String
  stopReason : String
  stepsExecuted : Int
  finalState : List (String × Value)
  screen : List String
  beeping : Bool
  trace : List (List (String × Value))
  error : Option (List (String × Value))

/-- The fields that every reply has. -/
def RunReply.required (r : RunReply) : List (String × Value) :=
  [("status", .text r.status), ("stop_reason", .text r.stopReason),
    ("steps_executed", .integer r.stepsExecuted), ("final_state", .object r.finalState),
    ("screen", .texts r.screen), ("beeping", .bool r.beeping), ("trace", .objects r.trace)]

def RunReply.dictionary (r : RunReply) : List (String × Value) :=
  r.required ++ (r.error.map fun fields => ("error", Value.object fields)).toList

def RunReply.body (r : RunReply) : Value :=
  .object (r.required ++ [("error", .orNull Value.object r.error)])

end Chip8.Web
