import Chip8.Proofs.Web.Framework
import Chip8.Web.Endpoint
import Mathlib.Data.List.Basic

/-!
# The framework at hand

The checks of `builtIn` read values as `Readers.builtIn` does, and the framework is lawful. The main
statement is `builtIn_lawful`.
-/

namespace Chip8.Web

/-! ### Checks -/

namespace Checked

variable {α β : Type} {b : β}

theorem map_valid_iff {f : α → β} {a : Checked α} :
    f <$> a = .valid b ↔ ∃ x, a = .valid x ∧ f x = b := by
  cases a <;> simp [Functor.map, Checked.seq]

theorem ap_valid_iff {f : Checked (α → β)} {a : Checked α} :
    f <*> a = .valid b ↔ ∃ g x, f = .valid g ∧ a = .valid x ∧ g x = b :=
  seq_valid_iff

theorem andThen_valid_iff {f : α → Checked β} {a : Checked α} :
    a.andThen f = .valid b ↔ ∃ x, a = .valid x ∧ f x = .valid b := by
  cases a <;> simp [andThen]

end Checked

namespace Check

variable {α : Type} {check : Check α} {path : Path} {value : Value}

theorem ofReading_valid_iff {read : Value → Except IssueKind α} {a : α} :
    ofReading read path value = .valid a ↔ (read value).toOption = some a := by
  unfold ofReading
  cases read value <;> simp [Checked.issue, Except.toOption]

theorem upTo_valid {limit v : Int} (h : upTo limit path value = .valid v) :
    value.readInteger.toOption = some v ∧ 1 ≤ v ∧ v ≤ limit := by
  obtain ⟨u, hread, hu⟩ := Checked.andThen_valid_iff.1 h
  by_cases hlow : u < 1
  · rw [if_pos hlow] at hu
    cases hu
  · by_cases hhigh : limit < u
    · rw [if_neg hlow, if_pos hhigh] at hu
      cases hu
    · rw [if_neg hlow, if_neg hhigh] at hu
      cases hu
      exact ⟨ofReading_valid_iff.1 hread, Int.not_lt.1 hlow, Int.not_lt.1 hhigh⟩

theorem text_valid {s : String} (h : text path value = .valid s) : value = .text s := by
  cases value with
  | text s' =>
    cases h
    rfl
  | _ => cases h

theorem oneOf_valid {choices : List String} {s : String} (h : oneOf choices path value = .valid s) :
    value = .text s ∧ s ∈ choices := by
  obtain ⟨u, htext, hu⟩ := Checked.andThen_valid_iff.1 h
  by_cases hc : choices.contains u = true
  · rw [if_pos hc] at hu
    cases hu
    exact ⟨text_valid htext, List.contains_iff_mem.1 hc⟩
  · rw [if_neg hc] at hu
    cases hu

theorem object_valid {f : Path → List (String × Value) → Checked α} {a : α}
    (h : object f path value = .valid a) :
    ∃ fields, value = .object fields ∧ f path fields = .valid a := by
  cases value with
  | object fields => exact ⟨fields, rfl, h⟩
  | _ => cases h

theorem optional_valid {a : Option α} (h : optional check path value = .valid a) :
    value = .null ∧ a = none ∨ value ≠ .null ∧ ∃ b, check path value = .valid b ∧ a = some b := by
  unfold optional at h
  split at h
  · cases h
    exact .inl ⟨rfl, rfl⟩
  · rename_i hnull
    obtain ⟨b, hb, rfl⟩ := Checked.map_valid_iff.1 h
    exact .inr ⟨hnull, b, hb, rfl⟩

theorem items_valid {read : Value → Option α}
    (h : ∀ path v a, check path v = .valid a → read v = some a) {i : Nat} {vs : List Value}
    {as : List α} (has : items check path i vs = .valid as) : vs.mapM read = some as := by
  induction vs generalizing i as with
  | nil =>
    cases has
    rfl
  | cons v rest ih =>
    obtain ⟨_, as', hmap, hrest, rfl⟩ := Checked.ap_valid_iff.1 has
    obtain ⟨a, ha, rfl⟩ := Checked.map_valid_iff.1 hmap
    rw [List.mapM_cons, h _ v a ha, ih hrest]
    rfl

theorem items_map {f : α → Value} (h : ∀ path a, check path (f a) = .valid a) (path : Path) (i : Nat)
    (as : List α) : items check path i (as.map f) = .valid as := by
  induction as generalizing i with
  | nil => rfl
  | cons a rest ih =>
    rw [List.map_cons, items, h, ih]
    rfl

theorem list_text (path : Path) (lines : List String) :
    list text path (.texts lines) = .valid lines :=
  items_map (f := Value.text) (fun _ _ => rfl) path 0 lines

theorem list_dictionary (path : Path) (dictionaries : List (List (String × Value))) :
    list dictionary path (.objects dictionaries) = .valid dictionaries :=
  items_map (f := Value.object) (fun _ _ => rfl) path 0 dictionaries

theorem required_text_valid {given : List (String × Value)} {name s : String}
    (h : required text path given name = .valid s) : Value.field? given name = some (.text s) := by
  unfold required at h
  cases hv : Value.field? given name with
  | none =>
    rw [hv] at h
    cases h
  | some v =>
    rw [hv] at h
    rw [text_valid h]

theorem stated_of_withDefault {given : List (String × Value)} {name : String}
    {read : Value → Option α} {usual a : α}
    (hread : ∀ path v a, check path v = .valid a → read v = some a)
    (h : withDefault usual check path given name = .valid a) : Stated given name read usual a := by
  unfold withDefault at h
  unfold Stated
  cases hv : Value.field? given name with
  | none =>
    rw [hv] at h
    cases h
    rfl
  | some v =>
    rw [hv] at h
    exact hread _ v a h

theorem of_withDefault (p : α → Prop) {given : List (String × Value)} {name : String} {usual a : α}
    (hp : ∀ path v a, check path v = .valid a → p a) (husual : p usual)
    (h : withDefault usual check path given name = .valid a) : p a := by
  unfold withDefault at h
  cases hv : Value.field? given name with
  | none =>
    rw [hv] at h
    cases h
    exact husual
  | some v =>
    rw [hv] at h
    exact hp _ v a h

end Check

/-! ### Requests -/

/-- What the checks read values as. -/
def Readers.builtIn : Readers where
  integer v := v.readInteger.toOption
  truth v := v.readBool.toOption
  integer_number n := by rw [Value.readInteger_number]; rfl
  truth_bool _ := rfl

section

open Check (ofReading_valid_iff stated_of_withDefault of_withDefault)

theorem Readers.builtIn_integerOrNull {path : Path} {v : Value} {a : Option Int}
    (h : Check.optional Check.integer path v = .valid a) : builtIn.integerOrNull v = some a := by
  rcases Check.optional_valid h with ⟨rfl, rfl⟩ | ⟨hnull, n, hn, rfl⟩
  · rfl
  · have hread : builtIn.integer v = some n := ofReading_valid_iff.1 hn
    unfold integerOrNull
    split
    · exact absurd rfl hnull
    · rw [hread, Option.map_some]

theorem Readers.builtIn_integers {path : Path} {v : Value} {as : List Int}
    (h : Check.list Check.integer path v = .valid as) : builtIn.integers v = some as := by
  cases v with
  | list vs => exact Check.items_valid (fun _ _ _ => ofReading_valid_iff.1) h
  | _ => cases h

theorem checkOptions_valid {path : Path} {options : Value} {o : RequestOptions}
    (h : checkOptions path options = .valid o) :
    ∃ given, options = .object given ∧ Fills .builtIn given o ∧ o.InLimits := by
  obtain ⟨given, rfl, hgiven⟩ := Check.object_valid h
  simp only [Checked.ap_valid_iff, Checked.map_valid_iff] at hgiven
  obtain ⟨_, _, ⟨_, _, ⟨_, _, ⟨_, _, ⟨_, _, ⟨_, _, ⟨_, _, ⟨_, _, ⟨_, _, ⟨_, hfrequency, rfl⟩, hmaxSteps, rfl⟩,
    hlegacy, rfl⟩, hwrap, rfl⟩, hunknown, rfl⟩, hstop, rfl⟩, hseed, rfl⟩, hkeys, rfl⟩, htrace, rfl⟩,
    hregisters, rfl⟩ := hgiven
  have hbool : ∀ path v b, Check.bool path v = .valid b → Readers.builtIn.truth v = some b :=
    fun _ _ _ => ofReading_valid_iff.1
  have hupTo : ∀ path v n, Check.upTo requestLimit path v = .valid n →
      Readers.builtIn.integer v = some n ∧ 1 ≤ n ∧ n ≤ requestLimit := fun _ _ _ => Check.upTo_valid
  have hone : ∀ path v s, Check.oneOf ["halt", "skip"] path v = .valid s →
      v.text? = some s ∧ (s = "halt" ∨ s = "skip") := by
    intro path v s hs
    obtain ⟨rfl, hmem⟩ := Check.oneOf_valid hs
    exact ⟨rfl, List.mem_pair.1 hmem⟩
  refine ⟨given, rfl, ?_, ?_⟩
  · exact {
      frequency := stated_of_withDefault (fun path v n hn => (hupTo path v n hn).1) hfrequency
      maxSteps := stated_of_withDefault (fun path v n hn => (hupTo path v n hn).1) hmaxSteps
      legacyShift := stated_of_withDefault hbool hlegacy
      spriteWrap := stated_of_withDefault hbool hwrap
      unknownInstruction := stated_of_withDefault (fun path v s hs => (hone path v s hs).1) hunknown
      stopOnSelfJump := stated_of_withDefault hbool hstop
      randomSeed := stated_of_withDefault (fun _ _ _ => Readers.builtIn_integerOrNull) hseed
      keysDown := stated_of_withDefault (fun _ _ _ => Readers.builtIn_integers) hkeys
      trace := stated_of_withDefault hbool htrace
      traceRegisters := stated_of_withDefault hbool hregisters }
  · exact {
      frequency := of_withDefault (fun n => 1 ≤ n ∧ n ≤ requestLimit)
        (fun path v n hn => (hupTo path v n hn).2) (by decide) hfrequency
      maxSteps := of_withDefault (fun n => 1 ≤ n ∧ n ≤ requestLimit)
        (fun path v n hn => (hupTo path v n hn).2) (by decide) hmaxSteps
      policy := of_withDefault (fun s => s = "halt" ∨ s = "skip")
        (fun path v s hs => (hone path v s hs).2) (.inl rfl) hunknown }

theorem checkRunRequest_valid {path : Path} {body : Value} {request : RunRequest}
    (h : checkRunRequest path body = .valid request) :
    Value.field? body.fields "program" = some (.text request.program) ∧
      OptionsOf .builtIn body request.options ∧ ∀ o, request.options = some o → o.InLimits := by
  obtain ⟨fields, rfl, hfields⟩ := Check.object_valid h
  simp only [Checked.ap_valid_iff, Checked.map_valid_iff] at hfields
  obtain ⟨_, options, ⟨text, htext, rfl⟩, hoptions, rfl⟩ := hfields
  refine ⟨Check.required_text_valid htext, ?_⟩
  unfold Check.withDefault at hoptions
  cases hv : Value.field? fields "options" with
  | none =>
    rw [hv] at hoptions
    cases hoptions
    exact ⟨.missing hv, fun o ho => by cases ho⟩
  | some v =>
    rw [hv] at hoptions
    rcases Check.optional_valid hoptions with ⟨rfl, rfl⟩ | ⟨-, o, ho, rfl⟩
    · exact ⟨.null hv, fun o ho => by cases ho⟩
    · obtain ⟨given, rfl, hfills, hlimits⟩ := checkOptions_valid ho
      refine ⟨.given hv hfills, ?_⟩
      rintro o' ⟨⟩
      exact hlimits

end

/-! ### Replies -/

theorem checkReply_dictionary (path : Path) (r : RunReply) :
    checkReply path (.object r.dictionary) = .valid r := by
  have hsteps : ∀ path, Check.integer path (.integer r.stepsExecuted) = .valid r.stepsExecuted :=
    fun path => Check.ofReading_valid_iff.2 (by rw [Value.integer, Value.readInteger_number]; rfl)
  obtain ⟨status, reason, steps, finalState, screen, beeping, trace, error⟩ := r
  cases error with
  | none | some fields =>
    simp only [checkReply, Check.object, Check.required, Check.withDefault, Value.field?,
      RunReply.dictionary, RunReply.required, Option.map_none, Option.map_some, Option.toList_none,
      Option.toList_some, List.append_nil, List.cons_append, List.nil_append, List.lookup_cons,
      List.lookup_nil, String.reduceBEq, hsteps, Check.list_text, Check.list_dictionary]
    rfl

theorem builtIn_lawful : builtIn.Lawful .builtIn where
  program _ _ h := (checkRunRequest_valid h).1
  options _ _ h := (checkRunRequest_valid h).2.1
  limits _ _ o h := (checkRunRequest_valid h).2.2 o
  send reply := by
    unfold builtIn
    simp only [checkReply_dictionary]

end Chip8.Web
