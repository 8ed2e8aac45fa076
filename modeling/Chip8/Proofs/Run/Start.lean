import Chip8.Proofs.Machine.Cycles
import Chip8.Run.Options

/-!
# How runs start

Which options are accepted, and the machine that accepted options build: the one at power-on with
the named keys down, whatever their order and however often they are named. The main statement is
`Options.builds_iff`.
-/

namespace Chip8

/-! ### Keys -/

theorem Key.ofInt?_of_valid {key : Int} (h : 0 ≤ key ∧ key ≤ 15) :
    ∃ k : Key, (k.val : Int) = key ∧ Key.ofInt? key = .ok k := by
  have hn : nibbleOfInt? key = some ⟨key.toNat, by omega⟩ := by
    rw [nibbleOfInt?_eq_some_iff]
    exact (Int.toNat_of_nonneg h.1).symm
  refine ⟨⟨key.toNat, by omega⟩, Int.toNat_of_nonneg h.1, ?_⟩
  rw [Key.ofInt?, hn]

theorem Key.ofInt?_of_invalid {key : Int} (h : ¬ (0 ≤ key ∧ key ≤ 15)) :
    Key.ofInt? key = .error (.keyOutOfRange key) := by
  have hn : nibbleOfInt? key = none := by
    unfold nibbleOfInt?
    rw [dif_neg h]
  rw [Key.ofInt?, hn]

namespace Keypad

/-- The keypad with the keys of the given numbers pressed. -/
def withDown (pad : Keypad) (keys : List Int) : Keypad :=
  Vector.ofFn fun k => pad.isDown k || decide ((k.val : Int) ∈ keys)

theorem isDown_withDown (pad : Keypad) (keys : List Int) (k : Key) :
    (pad.withDown keys).isDown k = (pad.isDown k || decide ((k.val : Int) ∈ keys)) := by
  simp [withDown, isDown]

theorem ext_isDown {pad pad' : Keypad} (h : ∀ k, pad.isDown k = pad'.isDown k) : pad = pad' := by
  apply Vector.ext
  intro i hi
  exact h ⟨i, hi⟩

theorem withDown_congr {keys keys' : List Int} (h : ∀ key, key ∈ keys ↔ key ∈ keys')
    (pad : Keypad) : pad.withDown keys = pad.withDown keys' := by
  apply ext_isDown
  intro k
  simp only [isDown_withDown, h]

theorem withDown_nil (pad : Keypad) : pad.withDown [] = pad := by
  apply ext_isDown
  intro k
  simp [isDown_withDown]

theorem withDown_cons (pad : Keypad) (k : Key) (keys : List Int) :
    pad.withDown ((k.val : Int) :: keys) = (pad.setKey k true).withDown keys := by
  apply ext_isDown
  intro j
  rw [isDown_withDown, isDown_withDown, isDown_setKey]
  by_cases hj : k = j
  · subst hj
    simp
  · have hv : ¬ (j.val : Int) = k.val := by
      intro he
      exact hj (Fin.ext (Int.ofNat.inj he).symm)
    simp [hj, hv]

end Keypad

namespace Machine

variable {ρ : Type}

theorem foldlM_press_eq_ok_iff {keys : List Int} {m m' : Machine ρ} :
    keys.foldlM press m = .ok m' ↔ (∀ key ∈ keys, 0 ≤ key ∧ key ≤ 15) ∧
      m' = { m with state := { m.state with keypad := m.state.keypad.withDown keys } } := by
  induction keys generalizing m with
  | nil =>
    rw [Keypad.withDown_nil, List.foldlM_nil]
    constructor
    · intro h
      cases h
      exact ⟨List.forall_mem_nil _, rfl⟩
    · rintro ⟨-, rfl⟩
      rfl
  | cons key rest ih =>
    rw [List.foldlM_cons, List.forall_mem_cons]
    by_cases hv : 0 ≤ key ∧ key ≤ 15
    · obtain ⟨k, rfl, hk⟩ := Key.ofInt?_of_valid hv
      have hp : m.press k.val = .ok { m with state := m.state.setKey k true } := by
        rw [press, setKey, hk]
        rfl
      rw [hp, Keypad.withDown_cons]
      have hrest := ih (m := { m with state := m.state.setKey k true })
      constructor
      · intro h
        obtain ⟨hkeys, rfl⟩ := hrest.1 h
        exact ⟨⟨hv, hkeys⟩, rfl⟩
      · rintro ⟨⟨-, hkeys⟩, rfl⟩
        exact hrest.2 ⟨hkeys, rfl⟩
    · have hp : m.press key = .error (.keyOutOfRange key) := by
        rw [press, setKey, Key.ofInt?_of_invalid hv]
        rfl
      rw [hp]
      constructor
      · intro h
        cases h
      · rintro ⟨⟨hk, -⟩, -⟩
        exact absurd hk hv

end Machine

namespace Run

/-! ### Accepted options -/

theorem Policy.ofName?_eq_ok_iff {text : String} {policy : Policy} :
    Policy.ofName? text = .ok policy ↔ (text = "halt" ∨ text = "skip") ∧
      policy = if text = "skip" then .skip else .halt := by
  unfold ofName?
  by_cases hh : text = "halt"
  · subst hh
    simp [eq_comm]
  · by_cases hs : text = "skip"
    · subst hs
      simp [eq_comm]
    · simp [hh, hs]

namespace Options

/-- The rules of options whose policy has a name. -/
def rules (o : Options) : Rules where
  policy := if o.unknownInstruction = "skip" then .skip else .halt
  stopOnSelfJump := o.stopOnSelfJump
  trace := o.trace
  traceRegisters := o.traceRegisters

theorem rules?_eq_ok_iff {o : Options} {rules : Rules} :
    o.rules? = .ok rules ↔
      (o.unknownInstruction = "halt" ∨ o.unknownInstruction = "skip") ∧ rules = o.rules := by
  unfold rules?
  cases hp : Policy.ofName? o.unknownInstruction with
  | error e =>
    have hn : ¬ (o.unknownInstruction = "halt" ∨ o.unknownInstruction = "skip") := by
      intro h
      rw [Policy.ofName?_eq_ok_iff.2 ⟨h, rfl⟩] at hp
      cases hp
    constructor
    · intro h
      cases h
    · rintro ⟨h, -⟩
      exact absurd h hn
  | ok policy =>
    obtain ⟨h, rfl⟩ := Policy.ofName?_eq_ok_iff.1 hp
    constructor
    · intro he
      cases he
      exact ⟨h, rfl⟩
    · rintro ⟨-, rfl⟩
      rfl

/-- The options are accepted for a program, and the machine is what they build. Without a seed it
has the given source. -/
def Builds (o : Options) (unseeded : Twister) (p : Program) (m : Machine Twister) : Prop :=
  (o.unknownInstruction = "halt" ∨ o.unknownInstruction = "skip") ∧ o.machine? unseeded p = .ok m

/-- The state at power-on with the keys down that the options name. -/
def startState (o : Options) (unseeded : Twister) (p : Program) : State Twister :=
  { State.powerOn p o.edgeMode (o.sourceOr unseeded) with
    keypad := Keypad.released.withDown o.keysDown }

theorem builds_iff {o : Options} {unseeded : Twister} {p : Program} {m : Machine Twister} :
    o.Builds unseeded p m ↔ (o.unknownInstruction = "halt" ∨ o.unknownInstruction = "skip") ∧
      (∀ key ∈ o.keysDown, 0 ≤ key ∧ key ≤ 15) ∧
      m = ⟨p, .ofLegacyShift o.legacyShift, o.frequency, o.edgeMode, 0,
        o.startState unseeded p⟩ := by
  unfold Builds machine? machineOn?
  rw [Machine.foldlM_press_eq_ok_iff]
  rfl

namespace Builds

variable {o : Options} {unseeded : Twister} {p : Program} {m : Machine Twister}

theorem eq (h : o.Builds unseeded p m) :
    m = ⟨p, .ofLegacyShift o.legacyShift, o.frequency, o.edgeMode, 0, o.startState unseeded p⟩ :=
  (builds_iff.1 h).2.2

theorem cycle_eq (h : o.Builds unseeded p m) : m.cycle = 0 := by
  rw [h.eq]

theorem frequency_eq (h : o.Builds unseeded p m) : m.frequency = o.frequency := by
  rw [h.eq]

theorem instructions_eq (h : o.Builds unseeded p m) :
    m.instructions = .ofLegacyShift o.legacyShift := by
  rw [h.eq]

theorem state_eq (h : o.Builds unseeded p m) : m.state = o.startState unseeded p := by
  rw [h.eq]

theorem instructions_ne (h : o.Builds unseeded p m) : m.instructions ≠ .idle := by
  rw [h.instructions_eq, InstructionSet.ofLegacyShift]
  split <;> exact InstructionSet.noConfusion

theorem bounded (h : o.Builds unseeded p m) : m.state.Bounded := by
  have hb := State.Bounded.powerOn p o.edgeMode (o.sourceOr unseeded)
  rw [h.state_eq]
  exact ⟨hb.pc, hb.stack, hb.delayTimer, hb.soundTimer⟩

end Builds

end Options

end Run

end Chip8
