import Chip8.Proofs.Machine.Histories

/-!
# Resets

A reset forgets the history: what is left of it is how many numbers have been drawn. `State.Fresh`
lists what a fresh state holds, memory byte by byte, and `Machine.answers` is what a host gets to
know along a history. The main statement is `Machine.reset_renews`.
-/

namespace Chip8

/-! ### Fresh states -/

theorem State.byteAt_image (program : Program) (a : Nat) :
    (image program).byteAt a =
      if 0x200 ≤ a ∧ a < 0x200 + program.bytes.length then program.bytes.getD (a - 0x200) 0
      else if 0x50 ≤ a ∧ a < 0xA0 then Font.table.getD (a - 0x50) 0
      else 0 := by
  have hl := program.length_le
  unfold image
  rw [Memory.byteAt_patch, Memory.byteAt_patch, Memory.byteAt_blank, Font.length_table]
  simp only [memorySize, programStart, fontStart, maxProgramSize] at hl ⊢
  by_cases hp : 0x200 ≤ a ∧ a < 0x200 + program.bytes.length
  · rw [if_pos hp, if_pos (by omega)]
  · rw [if_neg hp, if_neg (by omega)]
    by_cases hf : 0x50 ≤ a ∧ a < 0xA0
    · rw [if_pos hf, if_pos (by omega)]
    · rw [if_neg hf, if_neg (by omega)]

/-- What a state holds before the first cycle. -/
structure State.Fresh {ρ : Type} (program : Program) (mode : EdgeMode) (s : State ρ) : Prop where
  pc : s.pc.val = 0x200
  index : s.index.val = 0
  stack : s.stack.toList = []
  delayTimer : s.delayTimer = 0
  soundTimer : s.soundTimer = 0
  registers : ∀ r, s.register r = 0
  keys : ∀ k, s.keypad.isDown k = false
  edgeMode : s.screen.edgeMode = mode
  rows : ∀ y, s.screen.row y = 0
  changed : s.screen.changed = false
  memory : ∀ a, s.memory.byteAt a =
    if 0x200 ≤ a ∧ a < 0x200 + program.bytes.length then program.bytes.getD (a - 0x200) 0
    else if 0x50 ≤ a ∧ a < 0xA0 then Font.table.getD (a - 0x50) 0
    else 0

theorem State.fresh_powerOn {ρ : Type} (program : Program) (mode : EdgeMode) (random : ρ) :
    (State.powerOn program mode random).Fresh program mode where
  pc := rfl
  index := rfl
  stack := rfl
  delayTimer := rfl
  soundTimer := rfl
  registers := fun r => by simp [State.register, State.powerOn]
  keys := fun k => by simp [Keypad.isDown, State.powerOn, Keypad.released]
  edgeMode := rfl
  rows := fun y => by simp [Screen.row, State.powerOn, Screen.blank]
  changed := rfl
  memory := byteAt_image program

/-! ### Answers -/

namespace Machine

variable {ρ : Type} [RandomSource ρ]

/-- What a command gives back: the executed word or the report of the fault, or the refusal of a key. -/
def answer (m : Machine ρ) : Command → Except (Report ⊕ UsageError) (Option Word)
  | .step => (m.step.1.map some).mapError .inl
  | .press key => ((m.press key).map fun _ => none).mapError .inr
  | .release key => ((m.release key).map fun _ => none).mapError .inr
  | .reset => .ok none

def answers (m : Machine ρ) : List Command → List (Except (Report ⊕ UsageError) (Option Word))
  | [] => []
  | command :: rest => m.answer command :: (m.perform command).answers rest

theorem answers_append (m : Machine ρ) (first second : List Command) :
    m.answers (first ++ second) = m.answers first ++ (m.replay first).answers second := by
  induction first generalizing m with
  | nil => rfl
  | cons command rest ih =>
    have hrest := ih (m.perform command)
    show m.answer command :: (m.perform command).answers (rest ++ second) =
      m.answer command :: ((m.perform command).answers rest ++
        ((m.perform command).replay rest).answers second)
    rw [hrest]

/-! ### Behind a reset -/

theorem reset_replay (program : Program) (set : InstructionSet) (frequency : Int)
    (mode : EdgeMode) (random : ρ) (history : List Command) :
    ((powerOn program set frequency mode random).replay history).reset =
      powerOn program set frequency mode (RandomSource.after random
        ((powerOn program set frequency mode random).drawn history)) := by
  have hr := (powerOn program set frequency mode random).random_replay history
  obtain ⟨cycle, state, hm⟩ := (powerOn program set frequency mode random).replay_setup history
  rw [hm] at hr ⊢
  have hs : state.random = RandomSource.after random
      ((powerOn program set frequency mode random).drawn history) := hr
  rw [← hs]
  rfl

/-- After every history a reset leads to the cycle count and the state of power-on. From there the
machine goes through the states and gives the answers of a new machine whose source stands behind the
numbers that the history has drawn. -/
theorem reset_renews (program : Program) (set : InstructionSet) (frequency : Int)
    (mode : EdgeMode) (random : ρ) (history : List Command) :
    let start := powerOn program set frequency mode random
    let m := start.replay (history ++ [.reset])
    let source := RandomSource.after random (start.drawn history)
    m.cycle = 0 ∧ m.state = State.powerOn program mode source ∧ m.state.Fresh program mode ∧
    ∀ later : List Command,
      start.replay (history ++ .reset :: later) =
        (powerOn program set frequency mode source).replay later ∧
      start.answers (history ++ .reset :: later) =
        start.answers history ++ .ok none ::
          (powerOn program set frequency mode source).answers later := by
  intro start m source
  have hreset : (start.replay history).reset = powerOn program set frequency mode source :=
    reset_replay program set frequency mode random history
  have hm : m = powerOn program set frequency mode source := by
    rw [← hreset]
    exact replay_append start history [.reset]
  have hstate : m.state = State.powerOn program mode source := congrArg Machine.state hm
  refine ⟨congrArg Machine.cycle hm, hstate, ?_, fun later => ⟨?_, ?_⟩⟩
  · rw [hstate]
    exact State.fresh_powerOn program mode source
  · rw [← hreset]
    exact replay_append start history (.reset :: later)
  · rw [← hreset]
    exact answers_append start history (.reset :: later)

/-- A program that overwrites its own first byte. -/
theorem reset_renews_overwritten :
    ((powerOn ⟨[0xA2, 0x00, 0xF0, 0x55], by decide⟩ .standard 600 .clip (⟨#[], 0⟩ : Cycle)).replay
      [.step, .step]).state.memory.byteAt 0x200 = 0 ∧
    ((powerOn ⟨[0xA2, 0x00, 0xF0, 0x55], by decide⟩ .standard 600 .clip (⟨#[], 0⟩ : Cycle)).replay
      ([.step, .step] ++ [.reset])).state.memory.byteAt 0x200 = 0xA2 := by
  obtain ⟨-, -, hfresh, -⟩ := reset_renews ⟨[0xA2, 0x00, 0xF0, 0x55], by decide⟩ .standard 600 .clip
    (⟨#[], 0⟩ : Cycle) [.step, .step]
  have hbyte := hfresh.memory 0x200
  rw [if_pos (by decide)] at hbyte
  exact ⟨by decide +kernel, hbyte⟩

end Machine

end Chip8
