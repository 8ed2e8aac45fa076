import Chip8.Proofs.Run.Reports
import Chip8.Proofs.Web.Checks

/-!
# Answers to requests to run a program

Behind a lawful framework, a valid request is refused for its program or for a key, or it is answered with
the result of a run; no third thing happens. The run has the options that the request gives and the usual
ones for the rest. The main statement is `run_requests_answered`.
-/

namespace Chip8.Web

/-! ### Refusals -/

/-- The detail with which a program text or the keys are refused. The text is judged before the keys, and
the detail names the first key that is none. -/
inductive Refused (text : String) (keys : List Int) : String → Prop
  | notHex (hd : Hex.decode? (withoutBlanks text) = none) :
    Refused text keys "Program must be hexadecimal bytes"
  | tooLarge {image : List Byte} (hd : Hex.decode? (withoutBlanks text) = some image)
    (hsize : 3584 < image.length) : Refused text keys "Program size exceeds limit of 3584 bytes"
  | badKey {image : List Byte} (hd : Hex.decode? (withoutBlanks text) = some image)
    (hsize : image.length ≤ 3584) {before : List Int} {key : Int} {after : List Int}
    (hkeys : keys = before ++ key :: after) (hbefore : ∀ k ∈ before, 0 ≤ k ∧ k ≤ 15)
    (hkey : ¬ (0 ≤ key ∧ key ≤ 15)) : Refused text keys ("Invalid key: " ++ toString key)

/-- A program text and keys that a run can start with. -/
structure Accepted (text : String) (keys : List Int) (image : List Byte) : Prop where
  decoded : Hex.decode? (withoutBlanks text) = some image
  size : image.length ≤ 3584
  keys : ∀ key ∈ keys, 0 ≤ key ∧ key ≤ 15

variable {text : String} {keys : List Int}

/-- A program text that does not decode or gives too large an image, or a key that is none. -/
def Unrunnable (text : String) (keys : List Int) : Prop :=
  Hex.decode? (withoutBlanks text) = none ∨
  (∃ image, Hex.decode? (withoutBlanks text) = some image ∧ 3584 < image.length) ∨
  ∃ key ∈ keys, ¬ (0 ≤ key ∧ key ≤ 15)

theorem Refused.unrunnable {detail : String} (h : Refused text keys detail) : Unrunnable text keys := by
  cases h with
  | notHex hd => exact .inl hd
  | tooLarge hd hsize => exact .inr (.inl ⟨_, hd, hsize⟩)
  | badKey hd hsize hkeys hbefore hkey =>
    refine .inr (.inr ⟨_, ?_, hkey⟩)
    rw [hkeys]
    exact List.mem_append_right _ List.mem_cons_self

theorem Accepted.not_unrunnable {image : List Byte} (h : Accepted text keys image) :
    ¬ Unrunnable text keys := by
  rintro (hd | ⟨image', hd, hsize⟩ | ⟨key, hmem, hkey⟩)
  · rw [h.decoded] at hd
    cases hd
  · rw [h.decoded] at hd
    cases hd
    exact absurd h.size (Nat.not_le_of_lt hsize)
  · exact hkey (h.keys key hmem)

theorem isBadKey_iff {key : Int} : isBadKey key = true ↔ ¬ (0 ≤ key ∧ key ≤ 15) := by
  simp only [isBadKey, Bool.or_eq_true, decide_eq_true_eq]
  omega

theorem runProgram_cases (unseeded : Twister) (request : RunRequest)
    (hpolicy : request.chosen.unknownInstruction = "halt" ∨
      request.chosen.unknownInstruction = "skip") :
    (∃ detail, Refused request.program request.chosen.keysDown detail ∧
      runProgram unseeded request = .refused detail) ∨
    ∃ image out, Accepted request.program request.chosen.keysDown image ∧
      Run.run image request.chosen.runOptions unseeded = .ok out ∧
      runProgram unseeded request = .ok out ∧
      ∀ d, out.result.error = some d → d.category.name ≠ "ProgramTooLarge" := by
  cases hd : Hex.decode? (withoutBlanks request.program) with
  | none =>
    refine .inl ⟨_, .notHex hd, ?_⟩
    simp only [runProgram, decodeProgram, hd]
    rfl
  | some image =>
    by_cases hsize : image.length ≤ maxProgramSize
    · cases hk : request.chosen.keysDown.find? isBadKey with
      | some key =>
        obtain ⟨hkey, before, after, hkeys, hbefore⟩ := List.find?_eq_some_iff_append.1 hk
        refine .inl ⟨_, .badKey hd hsize hkeys (fun k hmem => ?_) (isBadKey_iff.1 hkey), ?_⟩
        · have hgood := hbefore k hmem
          rw [Bool.not_eq_true', Bool.eq_false_iff, ne_eq, isBadKey_iff] at hgood
          exact Decidable.not_not.1 hgood
        · simp only [runProgram, decodeProgram, hd, if_pos hsize, hk]
      | none =>
        have hkeys : ∀ key ∈ request.chosen.keysDown, 0 ≤ key ∧ key ≤ 15 := by
          intro key hmem
          have hgood := List.find?_eq_none.1 hk key hmem
          rw [isBadKey_iff] at hgood
          exact Decidable.not_not.1 hgood
        -- the checks of the endpoint cover every failure of the run
        obtain ⟨out, hrun, herror⟩ := Run.exists_runOn (o := request.chosen.runOptions)
          (request.chosen.runOptions.sourceOr unseeded) hsize hpolicy hkeys
        have hrun' : Run.run image request.chosen.runOptions unseeded = .ok out := hrun
        refine .inr ⟨image, out, ⟨hd, hsize, hkeys⟩, hrun', ?_, herror⟩
        simp only [runProgram, decodeProgram, hd, if_pos hsize, hk, hrun']
    · refine .inl ⟨_, .tooLarge hd (Nat.lt_of_not_le hsize), ?_⟩
      simp only [runProgram, decodeProgram, hd, if_neg hsize]
      rfl

/-! ### What a request asks for -/

/-- Options that say what the given fields say, and otherwise what is usual for a run. -/
structure AskedFor (r : Readers) (given : List (String × Value)) (o : Run.Options) : Prop where
  frequency : Stated given "frequency_hz" r.integer ({} : Run.Options).frequency o.frequency
  maxSteps : Stated given "max_steps" r.integer ({} : Run.Options).maxSteps o.maxSteps
  legacyShift : Stated given "legacy_shift" r.truth ({} : Run.Options).legacyShift o.legacyShift
  spriteWrap : Stated given "sprite_wrap" r.truth ({} : Run.Options).spriteWrap o.spriteWrap
  unknownInstruction : Stated given "unknown_instruction" Value.text?
    ({} : Run.Options).unknownInstruction o.unknownInstruction
  stopOnSelfJump : Stated given "stop_on_self_jump" r.truth ({} : Run.Options).stopOnSelfJump
    o.stopOnSelfJump
  randomSeed : Stated given "random_seed" r.integerOrNull ({} : Run.Options).randomSeed o.randomSeed
  keysDown : Stated given "keys_down" r.integers ({} : Run.Options).keysDown o.keysDown
  trace : Stated given "trace" r.truth ({} : Run.Options).trace o.trace
  traceRegisters : Stated given "trace_include_registers" r.truth
    ({} : Run.Options).traceRegisters o.traceRegisters

theorem AskedFor.unique {r : Readers} {given : List (String × Value)} {o o' : Run.Options}
    (h : AskedFor r given o) (h' : AskedFor r given o') : o = o' := by
  rw [Run.Options.mk.injEq]
  exact ⟨h.frequency.unique h'.frequency, h.maxSteps.unique h'.maxSteps,
    h.legacyShift.unique h'.legacyShift, h.spriteWrap.unique h'.spriteWrap,
    h.unknownInstruction.unique h'.unknownInstruction, h.stopOnSelfJump.unique h'.stopOnSelfJump,
    h.randomSeed.unique h'.randomSeed, h.keysDown.unique h'.keysDown, h.trace.unique h'.trace,
    h.traceRegisters.unique h'.traceRegisters⟩

/-- No option is lost or mixed up on its way to the run, and what is usual for requests is usual for
runs. -/
theorem Fills.askedFor {r : Readers} {given : List (String × Value)} {o : RequestOptions}
    (h : Fills r given o) : AskedFor r given o.runOptions where
  frequency := h.frequency
  maxSteps := h.maxSteps
  legacyShift := h.legacyShift
  spriteWrap := h.spriteWrap
  unknownInstruction := h.unknownInstruction
  stopOnSelfJump := h.stopOnSelfJump
  randomSeed := h.randomSeed
  keysDown := h.keysDown
  trace := h.trace
  traceRegisters := h.traceRegisters

theorem askedFor_nil (r : Readers) : AskedFor r [] ({} : RequestOptions).runOptions :=
  ⟨rfl, rfl, rfl, rfl, rfl, rfl, rfl, rfl, rfl, rfl⟩

theorem OptionsOf.askedFor {r : Readers} {body : Value} {options : Option RequestOptions}
    (h : OptionsOf r body options) :
    AskedFor r (givenOptions body) (options.getD {}).runOptions := by
  unfold givenOptions
  cases h with
  | missing h =>
    rw [h]
    exact askedFor_nil r
  | null h =>
    rw [h]
    exact askedFor_nil r
  | given h ho =>
    rw [h]
    exact ho.askedFor

/-! ### What is sent -/

/-- The fields, with a null for one that is not there. -/
def withNull (fields : List (String × Value)) (name : String) : List (String × Value) :=
  if (Value.field? fields name).isSome then fields else fields ++ [(name, .null)]

/-- A reply is sent with the fields of its dictionary and a null for an error that is absent. -/
theorem RunReply.body_eq (reply : RunReply) :
    reply.body = .object (withNull reply.dictionary "error") := by
  obtain ⟨status, reason, steps, finalState, screen, beeping, trace, error⟩ := reply
  cases error with
  | none | some fields =>
    simp only [body, withNull, dictionary, required, Value.field?, Option.map_none, Option.map_some,
      Option.toList_none, Option.toList_some, List.append_nil, List.cons_append, List.nil_append,
      List.lookup_cons, List.lookup_nil, String.reduceBEq, Option.isSome_none, Option.isSome_some,
      Bool.false_eq_true, if_true, if_false]
    rfl

/-- The dictionary of a result has the declared form. -/
theorem exists_reply (r : Run.Result) : ∃ reply : RunReply, resultFields r = reply.dictionary := by
  refine ⟨{
    status := r.status
    stopReason := r.reason.name
    stepsExecuted := r.steps
    finalState := finalStateFields r.finalState
    screen := r.screen
    beeping := r.beeping
    trace := r.trace.map traceRowFields
    error := r.error.map diagnosticFields }, ?_⟩
  unfold resultFields RunReply.dictionary
  rw [Option.map_map]
  rfl

theorem Framework.Lawful.sendResult {f : Framework} {r : Readers} (hf : f.Lawful r)
    (outcome : Run.Outcome) :
    f.sendResult outcome = .ok (.object (withNull (resultFields outcome.result) "error")) := by
  obtain ⟨reply, hreply⟩ := exists_reply outcome.result
  rw [Framework.sendResult, hreply, hf.send, reply.body_eq]

/-! ### The main statement -/

/-- The answer to a request for a run of a program text with options: a refusal exactly if there is no
such run, and otherwise the dictionary of the run's result, which tells of no program that is too large. -/
structure Answers (unseeded : Twister) (text : String) (o : Run.Options) (answer : Response Value) :
    Prop where
  status : answer.status = 400 ∨ answer.status = 200
  refused_iff : answer.status = 400 ↔ Unrunnable text o.keysDown
  detail : ∀ detail, answer = .refused detail → Refused text o.keysDown detail
  reply : answer.status = 200 → ∃ image out,
    Hex.decode? (withoutBlanks text) = some image ∧ Run.run image o unseeded = .ok out ∧
    (∀ seed, o.randomSeed = some seed → ∀ other, Run.run image o other = .ok out) ∧
    answer = .ok (.object (withNull (resultFields out.result) "error")) ∧
    ∀ d, out.result.error = some d → d.category.name ≠ "ProgramTooLarge"

theorem answers_runProgram {f : Framework} {r : Readers} (hf : f.Lawful r) (unseeded : Twister)
    {request : RunRequest} (h : request.chosen.InLimits) :
    Answers unseeded request.program request.chosen.runOptions
      ((runProgram unseeded request).andThen f.sendResult) := by
  rcases runProgram_cases unseeded request h.policy with
    ⟨detail, hrefused, hrun⟩ | ⟨image, out, haccepted, hrun, hok, herror⟩
  · rw [hrun]
    refine ⟨.inl rfl, iff_of_true rfl hrefused.unrunnable, ?_, ?_⟩
    · rintro detail' ⟨⟩
      exact hrefused
    · intro hstatus
      cases hstatus
  · have hsent : (runProgram unseeded request).andThen f.sendResult =
        .ok (.object (withNull (resultFields out.result) "error")) := by
      rw [hok]
      exact hf.sendResult out
    have hstatus : (200 : Nat) ≠ 400 := by decide
    rw [hsent]
    refine ⟨.inr rfl, iff_of_false hstatus haccepted.not_unrunnable, ?_, ?_⟩
    · intro detail hdetail
      cases hdetail
    · intro _
      refine ⟨image, out, haccepted.decoded, hrun, ?_, rfl, herror⟩
      intro seed hseed other
      rw [Run.run_of_seed hseed image other unseeded]
      exact hrun

/-- Behind every lawful framework every request is answered. A body with issues is answered as such; any
other is answered as a request for the run of its program with the options that its fields give and, for
those it does not give, the usual ones of a run. -/
theorem run_requests_answered {f : Framework} {r : Readers} (hf : f.Lawful r) (unseeded : Twister)
    (body : Value) :
    (∀ issues, f.receiveRun body = .invalid issues → (f.answerRun unseeded body).status = 422) ∧
    ∀ request, f.receiveRun body = .valid request →
      ∃ text o, Value.field? body.fields "program" = some (.text text) ∧
        AskedFor r (givenOptions body) o ∧ Answers unseeded text o (f.answerRun unseeded body) := by
  constructor
  · intro issues h
    rw [Framework.answerRun, Framework.runEndpoint, h]
    rfl
  · intro request h
    have hanswer : f.answerRun unseeded body = (runProgram unseeded request).andThen f.sendResult := by
      simp only [Framework.answerRun, Framework.runEndpoint, h]
    rw [hanswer]
    exact ⟨request.program, request.chosen.runOptions, hf.program body request h,
      (hf.options body request h).askedFor, answers_runProgram hf unseeded (hf.inLimits h)⟩

/-- A request that gives two of the options, one whose second and third keys are none, and one that asks
for no step. -/
theorem run_requests_answered_partial :
    let runs : Value := .object [("program", .text "12 00"),
      ("options", .object [("max_steps", .number 3 0), ("random_seed", .number 7 0)])]
    let refused : Value := .object [("program", .text "12 00"),
      ("options", .object [("keys_down", .list [.number 3 0, .number 16 0, .number (-1) 0])])]
    let invalid : Value := .object [("program", .text "12 00"),
      ("options", .object [("max_steps", .number 0 0)])]
    builtIn.Lawful .builtIn ∧
    (∃ out, Run.run [0x12, 0x00] { maxSteps := 3, randomSeed := some 7 } = .ok out ∧
      builtIn.answerRun (Twister.seeded 0) runs =
        .ok (.object (withNull (resultFields out.result) "error"))) ∧
    builtIn.answerRun (Twister.seeded 0) refused = .refused "Invalid key: 16" ∧
    Refused "12 00" [3, 16, -1] "Invalid key: 16" ∧
    (builtIn.answerRun (Twister.seeded 0) invalid).status = 422 := by
  intro runs refused invalid
  have hrefused : builtIn.answerRun (Twister.seeded 0) refused = .refused "Invalid key: 16" := rfl
  have hanswers := run_requests_answered builtIn_lawful (Twister.seeded 0)
  refine ⟨builtIn_lawful, ?_, hrefused, ?_, (hanswers invalid).1 _ rfl⟩
  · obtain ⟨text, o, htext, hasked, hanswer⟩ := (hanswers runs).2
      ⟨"12 00", some { maxSteps := 3, randomSeed := some 7 }⟩ rfl
    cases htext
    obtain rfl : o = { maxSteps := 3, randomSeed := some 7 } :=
      hasked.unique ⟨rfl, rfl, rfl, rfl, rfl, rfl, rfl, rfl, rfl, rfl⟩
    have hruns : Accepted "12 00" [] [0x12, 0x00] := ⟨rfl, by decide, List.forall_mem_nil _⟩
    obtain ⟨image, out, hd, hrun, -, hbody, -⟩ :=
      hanswer.reply (hanswer.status.resolve_left (mt hanswer.refused_iff.1 hruns.not_unrunnable))
    cases hd.symm.trans hruns.decoded
    exact ⟨out, hrun, hbody⟩
  · obtain ⟨text, o, htext, hasked, hanswer⟩ := (hanswers refused).2
      ⟨"12 00", some { keysDown := [3, 16, -1] }⟩ rfl
    cases htext
    obtain rfl : o = { keysDown := [3, 16, -1] } :=
      hasked.unique ⟨rfl, rfl, rfl, rfl, rfl, rfl, rfl, rfl, rfl, rfl⟩
    exact hanswer.detail _ hrefused

end Chip8.Web
