import Chip8.Proofs.Machine.Histories
import Chip8.Proofs.Machine.Lockstep
import Chip8.Proofs.Run.Course

/-!
# Sampling the keypad

Only three instructions look at the keypad, and no cycle alters it. If the keypads of two histories look
the same to these instructions whenever one of them is executed, nothing else tells the machines apart.
The main statement is `keypad_sampled_by_key_instructions`.
-/

namespace Chip8

/-! ### Keypads of histories -/

namespace Keypad

/-- The keypad with a key pressed or released that is given by number, if there is such a key. -/
def hold (pad : Keypad) (key : Int) (down : Bool) : Keypad :=
  match Key.ofInt? key with
  | .ok k => pad.setKey k down
  | .error _ => pad

def perform (pad : Keypad) : Command → Keypad
  | .step => pad
  | .press key => pad.hold key true
  | .release key => pad.hold key false
  | .reset => released

/-- The keypads at the steps of a history. -/
def atSteps (pad : Keypad) : List Command → List Keypad
  | [] => []
  | .step :: rest => pad :: pad.atSteps rest
  | command :: rest => (pad.perform command).atSteps rest

theorem atSteps_cons (pad : Keypad) {command : Command} (h : command ≠ .step)
    (rest : List Command) :
    pad.atSteps (command :: rest) = (pad.perform command).atSteps rest := by
  cases command with
  | step => exact absurd rfl h
  | _ => rfl

theorem length_atSteps (pad : Keypad) (history : List Command) :
    (pad.atSteps history).length = history.count .step := by
  induction history generalizing pad with
  | nil => rfl
  | cons command rest ih =>
    by_cases hstep : command = .step
    · subst hstep
      rw [atSteps, List.length_cons, ih, List.count_cons_self]
    · rw [atSteps_cons pad hstep, ih, List.count_cons_of_ne hstep]

end Keypad

/-! ### One word -/

def State.holding {ρ : Type} (s : State ρ) (pad : Keypad) : State ρ := { s with keypad := pad }

/-- If the word tests a key, the key has the same status on both keypads, and if it waits for a key, the
lowest key that is down is the same. -/
structure Word.ReadsAlike {ρ : Type} (s : State ρ) (pad pad' : Keypad) (w : Word) : Prop where
  test : w.family = 0xE ∧ (w.nn = 0x9E ∨ w.nn = 0xA1) →
    pad'.isDown (Key.ofNibble (s.register w.x).toNat) =
      pad.isDown (Key.ofNibble (s.register w.x).toNat)
  wait : w.family = 0xF ∧ w.nn = 0x0A → pad'.first? = pad.first?

namespace Word

variable {ρ : Type} {s : State ρ} {w : Word}

instance (s : State ρ) (pad pad' : Keypad) (w : Word) : Decidable (w.ReadsAlike s pad pad') :=
  decidable_of_iff (_ ∧ _) ⟨fun h => ⟨h.1, h.2⟩, fun h => ⟨h.test, h.wait⟩⟩

-- behind a fetch neither a skip nor a wait can fail, so it does not matter which of them the keypad
-- brings about
theorem fault?_holding (set : InstructionSet) (h2 : 2 ≤ s.pc.val) (h4096 : s.pc.val ≤ 4096)
    (pad : Keypad) : w.fault? set (s.holding pad) = w.fault? set s := by
  apply fault?_of_instruction
  intro i
  cases i with
  | skip condition =>
    have hskip : Address.overflow? (s.pc.val + 2) = none := Address.overflow?_skip h4096
    have hskip' : Address.overflow? ((s.holding pad).pc.val + 2) = none := hskip
    simp only [Instruction.fault?, hskip, hskip', ite_self]
  | awaitKey x =>
    have hwait : Address.overflow? (s.pc.val + -2) = none := Address.overflow?_wait h2
    have hwait' : Address.overflow? ((s.holding pad).pc.val + -2) = none := hwait
    simp only [Instruction.fault?, hwait, hwait', ite_self]
  | _ => rfl

variable [RandomSource ρ] {pad : Keypad}

theorem StandsFor.effect_holding {i : Instruction} (hw : w.StandsFor i) (set : InstructionSet)
    (h : w.ReadsAlike s s.keypad pad) :
    i.effect set (s.holding pad) = (i.effect set s).holding pad := by
  cases hw with
  | keyDown hf hn =>
    have hc : (Condition.keyDown w.x).holds (s.holding pad) = (Condition.keyDown w.x).holds s :=
      h.test ⟨hf, .inl hn⟩
    simp only [Instruction.effect, hc]
    rfl
  | keyUp hf hn =>
    have hc : (Condition.keyUp w.x).holds (s.holding pad) = (Condition.keyUp w.x).holds s :=
      congrArg not (h.test ⟨hf, .inr hn⟩)
    simp only [Instruction.effect, hc]
    rfl
  | awaitKey hf hn =>
    have hc : (s.holding pad).keypad.first? = s.keypad.first? := h.wait ⟨hf, hn⟩
    simp only [Instruction.effect, State.withKey, hc]
    rfl
  | _ => rfl

theorem effect_holding (set : InstructionSet) (h : w.ReadsAlike s s.keypad pad) :
    w.effect set (s.holding pad) = (w.effect set s).holding pad := by
  apply effect_of_instruction (g := (State.holding · pad))
  intro i hw
  exact hw.effect_holding set h

end Word

/-! ### Steps -/

namespace Machine

variable {ρ : Type}

def holding (m : Machine ρ) (pad : Keypad) : Machine ρ := { m with state := m.state.holding pad }

/-- The two machines agree on everything but the keypad. -/
def AgreesButKeys (m m' : Machine ρ) : Prop := m' = m.holding m'.state.keypad

theorem mirrors_holding (m : Machine ρ) (pad : Keypad) :
    Mirrors (fun s => s.holding pad) m (m.holding pad) :=
  ⟨rfl, rfl, rfl, rfl, rfl⟩

theorem perform_holding [RandomSource ρ] (m : Machine ρ) {command : Command}
    (hstep : command ≠ .step) (hreset : command ≠ .reset) :
    m.perform command = m.holding (m.state.keypad.perform command) := by
  have hset : ∀ key down, (m.setKey key down).toOption.getD m =
      m.holding (m.state.keypad.hold key down) := by
    intro key down
    unfold setKey Keypad.hold
    cases Key.ofInt? key <;> rfl
  cases command with
  | step => exact absurd rfl hstep
  | press key => exact hset key true
  | release key => exact hset key false
  | reset => exact absurd rfl hreset

variable [RandomSource ρ] {m : Machine ρ} {pad : Keypad}

/-- A keypad that the next word reads like the machine's own makes no difference to the cycle. -/
theorem step_holding
    (h : ∀ w, m.step.1 = .ok w → w.ReadsAlike m.state m.state.keypad pad) :
    (m.holding pad).step = (m.step.1, m.step.2.holding pad) := by
  have hfault : m.state.pc.val + 1 < memorySize →
      m.nextWord.fault? m.instructions (m.fetched.holding pad) =
        m.nextWord.fault? m.instructions m.fetched := by
    intro hp
    have hpc := pc_fetched hp
    simp only [memorySize] at hp
    exact Word.fault?_holding m.instructions (by omega) (by omega) pad
  have heffect : m.step.1 = .ok m.nextWord →
      m.nextWord.effect m.instructions (m.fetched.holding pad) =
        (m.nextWord.effect m.instructions m.fetched).holding pad := by
    intro hw
    obtain ⟨htest, hwait⟩ := h m.nextWord hw
    exact Word.effect_holding m.instructions ⟨htest, hwait⟩
  obtain ⟨s, hafter, hstep⟩ := (m.mirrors_holding pad).step hfault heffect
  rw [hstep, hafter]
  rfl

-- its own keypad is read like itself
theorem keypad_step (m : Machine ρ) : m.step.2.state.keypad = m.state.keypad := by
  have h : (m.holding m.state.keypad).step = (m.step.1, m.step.2.holding m.state.keypad) :=
    step_holding fun w _ => ⟨fun _ => rfl, fun _ => rfl⟩
  exact congrArg (fun result => result.2.state.keypad) h

/-! ### Histories -/

/-- The machines in which the steps of a history are taken. -/
def atSteps (m : Machine ρ) : List Command → List (Machine ρ)
  | [] => []
  | .step :: rest => m :: m.step.2.atSteps rest
  | command :: rest => (m.perform command).atSteps rest

theorem atSteps_cons (m : Machine ρ) {command : Command} (h : command ≠ .step)
    (rest : List Command) : m.atSteps (command :: rest) = (m.perform command).atSteps rest := by
  cases command with
  | step => exact absurd rfl h
  | _ => rfl

/-- The machines in which steps are taken that find the given keypads. -/
def finding (m : Machine ρ) : List Keypad → List (Machine ρ)
  | [] => []
  | pad :: rest => m.holding pad :: (m.holding pad).step.2.finding rest

theorem finding_holding (m : Machine ρ) (pad : Keypad) (pads : List Keypad) :
    (m.holding pad).finding pads = m.finding pads := by
  cases pads <;> rfl

theorem length_finding (m : Machine ρ) (pads : List Keypad) :
    (m.finding pads).length = pads.length := by
  induction pads generalizing m with
  | nil => rfl
  | cons pad rest ih => rw [finding, List.length_cons, List.length_cons, ih]

theorem keypad_finding (m : Machine ρ) (pads : List Keypad) :
    (m.finding pads).map (fun a => a.state.keypad) = pads := by
  induction pads generalizing m with
  | nil => rfl
  | cons pad rest ih =>
    rw [finding, List.map_cons, ih]
    rfl

theorem atSteps_eq_finding (m : Machine ρ) {history : List Command} (hr : .reset ∉ history) :
    m.atSteps history = m.finding (m.state.keypad.atSteps history) := by
  induction history generalizing m with
  | nil => rfl
  | cons command rest ih =>
    have hrest : .reset ∉ rest := fun hm => hr (List.mem_cons_of_mem command hm)
    by_cases hstep : command = .step
    · subst hstep
      have hnext := ih m.step.2 hrest
      rw [keypad_step] at hnext
      exact congrArg (m :: ·) hnext
    · have hreset : command ≠ .reset := fun he => hr (he ▸ List.mem_cons_self)
      rw [atSteps_cons m hstep, Keypad.atSteps_cons _ hstep, m.perform_holding hstep hreset,
        ih _ hrest, finding_holding]
      rfl

-- by induction on the keypads: behind equally many steps the second machine is the first one with
-- another keypad, and the next step finds another keypad anyway
theorem finding_agrees {pads pads' : List Keypad}
    (h : ∀ (i : Nat) (a : Machine ρ) (pad' : Keypad), (m.finding pads)[i]? = some a →
      pads'[i]? = some pad' → ∀ w, a.step.1 = .ok w → w.ReadsAlike a.state a.state.keypad pad')
    {i : Nat} {a b : Machine ρ} (ha : (m.finding pads)[i]? = some a)
    (hb : (m.finding pads')[i]? = some b) :
    b.step.1 = a.step.1 ∧ a.step.2.AgreesButKeys b.step.2 := by
  induction pads generalizing m pads' i with
  | nil => cases ha
  | cons pad rest ih =>
    cases pads' with
    | nil => cases hb
    | cons pad' rest' =>
      have hstep : (m.holding pad').step =
          ((m.holding pad).step.1, (m.holding pad).step.2.holding pad') :=
        step_holding (m := m.holding pad) (h 0 (m.holding pad) pad' rfl rfl)
      cases i with
      | zero =>
        cases ha
        cases hb
        rw [hstep]
        exact ⟨rfl, rfl⟩
      | succ i =>
        rw [finding, hstep, finding_holding] at hb
        exact ih (fun j a pad' hj hpad' => h (j + 1) a pad' hj hpad') ha hb

end Machine

namespace Run

theorem run_keysDown (unseeded : Twister) (image : List Byte) (o : Options) {keys keys' : List Int}
    (hkeys : ∀ key ∈ keys, 0 ≤ key ∧ key ≤ 15) (h : ∀ key, key ∈ keys ↔ key ∈ keys') :
    run image { o with keysDown := keys' } unseeded =
      run image { o with keysDown := keys } unseeded := by
  have hkeys' : ∀ key ∈ keys', 0 ≤ key ∧ key ≤ 15 := fun key hk => hkeys key ((h key).2 hk)
  have hmachine : ∀ p, { o with keysDown := keys' }.machineOn? (o.sourceOr unseeded) p =
      { o with keysDown := keys }.machineOn? (o.sourceOr unseeded) p := by
    intro p
    unfold Options.machineOn?
    rw [Machine.foldlM_press_eq_ok_iff.2 ⟨hkeys', rfl⟩, Machine.foldlM_press_eq_ok_iff.2 ⟨hkeys, rfl⟩,
      Keypad.withDown_congr h]
    rfl
  have hsource : ∀ keys, { o with keysDown := keys }.sourceOr unseeded = o.sourceOr unseeded :=
    fun _ => rfl
  unfold run runOn
  simp only [hsource, hmachine]
  rfl

end Run

/-! ### The main statement -/

/-- In two histories of steps and keys, if the keypads look the same to every key instruction when it is
executed, equally numbered steps return the same and leave machines that agree on everything but the
keypad. In particular a run depends on which keys are named to be down, not on their order. -/
theorem keypad_sampled_by_key_instructions {ρ : Type} [RandomSource ρ] :
    (∀ (program : Program) (set : InstructionSet) (frequency : Int) (mode : EdgeMode) (random : ρ)
      (history history' : List Command),
      let start := Machine.powerOn program set frequency mode random
      .reset ∉ history → .reset ∉ history' → history.count .step = history'.count .step →
      (∀ (i : Nat) (a : Machine ρ) (pad pad' : Keypad), (start.atSteps history)[i]? = some a →
        (Keypad.released.atSteps history)[i]? = some pad →
        (Keypad.released.atSteps history')[i]? = some pad' →
        ∀ w, a.step.1 = .ok w → w.ReadsAlike a.state pad pad') →
      ∀ i < history.count .step, ∃ a b, (start.atSteps history)[i]? = some a ∧
        (start.atSteps history')[i]? = some b ∧ b.step.1 = a.step.1 ∧
        a.step.2.AgreesButKeys b.step.2) ∧
    ∀ (unseeded : Twister) (image : List Byte) (o : Run.Options) (keys keys' : List Int),
      o.unknownInstruction = "halt" ∨ o.unknownInstruction = "skip" →
      (∀ key ∈ keys, 0 ≤ key ∧ key ≤ 15) → (∀ key, key ∈ keys ↔ key ∈ keys') →
      ∃ out, Run.run image { o with keysDown := keys } unseeded = .ok out ∧
        Run.run image { o with keysDown := keys' } unseeded = .ok out := by
  constructor
  · intro program set frequency mode random history history' start hr hr' hcount h i hi
    let pads := Keypad.released.atSteps history
    let pads' := Keypad.released.atSteps history'
    have hfinding : start.atSteps history = start.finding pads := start.atSteps_eq_finding hr
    have hfinding' : start.atSteps history' = start.finding pads' := start.atSteps_eq_finding hr'
    have hlt : i < (start.finding pads).length := by
      rwa [Machine.length_finding, Keypad.length_atSteps]
    have hlt' : i < (start.finding pads').length := by
      rwa [Machine.length_finding, Keypad.length_atSteps, ← hcount]
    rw [hfinding] at h ⊢
    rw [hfinding']
    have ha := List.getElem?_eq_getElem hlt
    have hb := List.getElem?_eq_getElem hlt'
    refine ⟨_, _, ha, hb, Machine.finding_agrees (fun j a pad' hj hj' => ?_) ha hb⟩
    apply h j a a.state.keypad pad' hj _ hj'
    have hpad := congrArg (·[j]?) (start.keypad_finding pads)
    rw [List.getElem?_map, hj] at hpad
    exact hpad.symm
  · intro unseeded image o keys keys' hpolicy hkeys hsame
    obtain ⟨out, hrun⟩ := Run.exists_run (o := { o with keysDown := keys }) unseeded image hpolicy hkeys
    refine ⟨out, hrun, ?_⟩
    rw [Run.run_keysDown unseeded image o hkeys hsame, hrun]

/-- A test of key 0, which is up, and a wait that finds key 5, once alone and once below key 9. -/
theorem keypad_sampled_by_key_instructions_wait :
    let program : Program := ⟨[0xE0, 0x9E, 0xF1, 0x0A], by decide⟩
    let start := Machine.powerOn program .standard 600 .clip (⟨#[], 0⟩ : Cycle)
    let history : List Command := [.step, .press 5, .step]
    let history' : List Command := [.press 7, .step, .release 7, .press 5, .press 9, .step]
    (∀ (i : Nat) (a : Machine Cycle) (pad pad' : Keypad), (start.atSteps history)[i]? = some a →
      (Keypad.released.atSteps history)[i]? = some pad →
      (Keypad.released.atSteps history')[i]? = some pad' →
      ∀ w, a.step.1 = .ok w → w.ReadsAlike a.state pad pad') ∧
    (∀ i < 2, ∃ a b, (start.atSteps history)[i]? = some a ∧
      (start.atSteps history')[i]? = some b ∧ b.step.1 = a.step.1 ∧
      a.step.2.AgreesButKeys b.step.2) ∧
    ∃ out, Run.run program.bytes { randomSeed := some 7, keysDown := [3, 3, 0] } = .ok out ∧
      Run.run program.bytes { randomSeed := some 7, keysDown := [0, 3] } = .ok out := by
  intro program start history history'
  have h : ∀ (i : Nat) (a : Machine Cycle) (pad pad' : Keypad),
      (start.atSteps history)[i]? = some a → (Keypad.released.atSteps history)[i]? = some pad →
      (Keypad.released.atSteps history')[i]? = some pad' →
      ∀ w, a.step.1 = .ok w → w.ReadsAlike a.state pad pad' := by
    have hstart : start.atSteps history = [start, start.step.2.perform (.press 5)] := rfl
    rw [hstart]
    intro i a pad pad' ha hpad hpad'
    rcases i with _ | _ | i
    · obtain rfl := Option.some.inj ha
      obtain rfl := Option.some.inj hpad
      obtain rfl := Option.some.inj hpad'
      decide +kernel
    · obtain rfl := Option.some.inj ha
      obtain rfl := Option.some.inj hpad
      obtain rfl := Option.some.inj hpad'
      decide +kernel
    · cases ha
  obtain ⟨hsampled, hrun⟩ := @keypad_sampled_by_key_instructions Cycle _
  refine ⟨h, ?_, ?_⟩
  · exact hsampled program .standard 600 .clip ⟨#[], 0⟩ history history' (by decide) (by decide)
      (by decide) h
  · apply hrun (Twister.seeded 0) program.bytes { randomSeed := some 7 } [3, 3, 0] [0, 3] (.inl rfl)
      (by decide)
    intro key
    simp only [List.mem_cons, List.not_mem_nil, or_false]
    rw [or_self_left, or_comm]

end Chip8
