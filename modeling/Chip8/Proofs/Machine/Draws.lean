import Chip8.Proofs.Byte
import Chip8.Proofs.Machine.Histories
import Chip8.Proofs.Machine.Lockstep

/-!
# Drawing random numbers

The numbers of a source are used up in order and once each: along every history, the random words that
are executed receive them one by one, and nothing else touches the source. So a machine knows of its
source no more than the low bits of the numbers that it has drawn. The main statement is
`random_numbers_in_order`.
-/

namespace Chip8

namespace Machine

variable {ρ : Type} [RandomSource ρ] {m : Machine ρ} {command : Command} {history : List Command}

/-! ### The random words of a history -/

/-- An executed word of the form `CXNN` and what it leaves in its register. -/
structure Roll where
  word : Word
  value : Byte
  deriving DecidableEq, Repr

def roll? (m : Machine ρ) : Command → Option Roll
  | .step =>
    match m.step.1 with
    | .ok w => if w.family = 0xC then some ⟨w, m.step.2.state.register w.x⟩ else none
    | .error _ => none
  | .press _ => none
  | .release _ => none
  | .reset => none

def rolls (m : Machine ρ) : List Command → List Roll
  | [] => []
  | command :: rest => (m.roll? command).toList ++ (m.perform command).rolls rest

theorem of_roll? {r : Roll} (h : m.roll? command = some r) :
    command = .step ∧ m.step.1 = .ok r.word ∧ r.word.family = 0xC ∧
      r.value = m.step.2.state.register r.word.x := by
  cases command with
  | step =>
    simp only [roll?] at h
    split at h
    · rename_i w hw
      split at h
      · rename_i hC
        cases h
        exact ⟨rfl, hw, hC, rfl⟩
      · cases h
    · cases h
  | press | release | reset => cases h

theorem length_roll? (hset : m.instructions ≠ .idle) (command : Command) :
    (m.roll? command).toList.length = m.draws command := by
  cases command with
  | step =>
    simp only [roll?, draws]
    cases m.step.1 with
    | ok w =>
      by_cases hC : w.family = 0xC
      · simp only [if_pos hC, if_pos (And.intro hset hC)]
        rfl
      · simp only [if_neg hC, if_neg (mt And.right hC)]
        rfl
    | error report => rfl
  | press | release | reset => rfl

theorem length_rolls (hset : m.instructions ≠ .idle) (history : List Command) :
    (m.rolls history).length = m.drawn history := by
  induction history generalizing m with
  | nil => rfl
  | cons command rest ih =>
    rw [rolls, List.length_append, length_roll? hset, ih (by rwa [instructions_perform]), drawn]

/-! ### What they receive -/

theorem register_random (set : InstructionSet) (s : State ρ) (x : Register) (mask : Byte) :
    ((Instruction.random x mask).effect set s).register x =
      Byte.ofInt (RandomSource.next s.random).1 &&& mask := by
  have h := State.register_setRegister s x x (Byte.ofInt (RandomSource.next s.random).1 &&& mask)
  rw [if_pos rfl] at h
  exact h

theorem value_of_roll? (hset : m.instructions ≠ .idle) {r : Roll} (h : m.roll? command = some r) :
    r.value = Byte.ofInt (RandomSource.stream m.state.random 0) &&& r.word.nn := by
  obtain ⟨-, hw, hC, hv⟩ := of_roll? h
  have ho := m.step_outcome
  rw [hv]
  generalize m.step = result at ho hw ⊢
  cases ho with
  | unfetched | faulted => cases hw
  | executed hp hf =>
    have hnext : m.nextWord = r.word := Except.ok.inj hw
    rw [hnext] at hf ⊢
    obtain ⟨i, hi, -, he⟩ := Word.standsFor_of_fault?_eq_none hset hf
    obtain rfl := hi.unique (.random hC)
    rw [after, he, register_random]
    rfl

theorem draws_of_roll? (hset : m.instructions ≠ .idle) {r : Roll} (h : m.roll? command = some r) :
    m.draws command = 1 := by
  rw [← length_roll? hset, h]
  rfl

theorem draws_of_roll?_eq_none (hset : m.instructions ≠ .idle) (h : m.roll? command = none) :
    m.draws command = 0 := by
  rw [← length_roll? hset, h]
  rfl

-- by induction on the history: behind a command that has drawn, the numbers count from one further on
theorem value_of_rolls (hset : m.instructions ≠ .idle) {i : Nat} {r : Roll}
    (h : (m.rolls history)[i]? = some r) : r.word.family = 0xC ∧
      r.value = Byte.ofInt (RandomSource.stream m.state.random i) &&& r.word.nn := by
  induction history generalizing m i with
  | nil => cases h
  | cons command rest ih =>
    have hset' : (m.perform command).instructions ≠ .idle := by rwa [instructions_perform]
    have hsource := m.random_perform command
    rw [rolls] at h
    cases hr : m.roll? command with
    | none =>
      rw [hr] at h
      rw [draws_of_roll?_eq_none hset hr] at hsource
      have hrest := ih hset' h
      rw [hsource] at hrest
      exact hrest
    | some first =>
      rw [hr] at h
      rw [draws_of_roll? hset hr] at hsource
      cases i with
      | zero =>
        cases h
        exact ⟨(of_roll? hr).2.2.1, value_of_roll? hset hr⟩
      | succ i =>
        have hrest := ih hset' (i := i) h
        rw [hsource] at hrest
        exact hrest

end Machine

/-! ### Exchanging the source -/

section

variable {ρ σ : Type}

def State.withSource (s : State ρ) (source : σ) : State σ where
  memory := s.memory
  pc := s.pc
  index := s.index
  stack := s.stack
  delayTimer := s.delayTimer
  soundTimer := s.soundTimer
  registers := s.registers
  keypad := s.keypad
  screen := s.screen
  random := source

/-- The same machine with another source. -/
def Machine.withSource (m : Machine ρ) (source : σ) : Machine σ where
  program := m.program
  instructions := m.instructions
  frequency := m.frequency
  edgeMode := m.edgeMode
  cycle := m.cycle
  state := m.state.withSource source

theorem Machine.setKey_withSource (m : Machine ρ) (source : σ) (key : Int) (down : Bool) :
    ((m.withSource source).setKey key down).toOption.getD (m.withSource source) =
      ((m.setKey key down).toOption.getD m).withSource source := by
  unfold setKey
  cases Key.ofInt? key <;> rfl

variable [RandomSource ρ] [RandomSource σ]

theorem Instruction.effect_withSource (set : InstructionSet) (s : State ρ) (source : σ)
    (i : Instruction) (h : ∀ x mask, i = random x mask →
      Byte.ofInt (RandomSource.next source).1 = Byte.ofInt (RandomSource.next s.random).1) :
    ∃ source', i.effect set (s.withSource source) = (i.effect set s).withSource source' := by
  cases i with
  | random x mask =>
    have hv : Byte.ofInt (RandomSource.next (s.withSource source).random).1 =
        Byte.ofInt (RandomSource.next s.random).1 := h x mask rfl
    refine ⟨(RandomSource.next source).2, ?_⟩
    simp only [effect, hv]
    rfl
  | skip condition => cases condition <;> exact ⟨source, rfl⟩
  | _ => exact ⟨source, rfl⟩

namespace Machine

variable {m : Machine ρ} {source : σ}

theorem step_withSource (hset : m.instructions ≠ .idle) (h : m.draws .step = 1 →
      Byte.ofInt (RandomSource.next source).1 = Byte.ofInt (RandomSource.next m.state.random).1) :
    ∃ source', (m.withSource source).step = (m.step.1, m.step.2.withSource source') := by
  let R (s : State ρ) (t : State σ) : Prop := ∃ source, t = s.withSource source
  have hm : Matches R m (m.withSource source) := ⟨rfl, rfl, rfl, ⟨source, rfl⟩, ⟨source, rfl⟩⟩
  obtain ⟨s, t, ⟨source', rfl⟩, hs, hstep⟩ := hm.step
    (fun _ => Word.fault?_congr m.instructions rfl rfl rfl rfl rfl)
    fun hw => by
      apply Word.effect_related (R := R) (s := m.fetched) (t := m.fetched.withSource source)
        m.instructions ⟨source, rfl⟩
      intro i hi
      apply i.effect_withSource m.instructions m.fetched source
      rintro x mask rfl
      have hC : m.nextWord.family = 0xC := by
        cases hi with
        | random hC => exact hC
      apply h
      simp only [draws, hw]
      rw [if_pos ⟨hset, hC⟩]
  refine ⟨source', ?_⟩
  rw [hstep, hs]
  rfl

theorem perform_withSource (hset : m.instructions ≠ .idle) (command : Command)
    (h : m.draws command = 1 →
      Byte.ofInt (RandomSource.next source).1 = Byte.ofInt (RandomSource.next m.state.random).1) :
    (m.withSource source).perform command =
      (m.perform command).withSource (RandomSource.after source (m.draws command)) := by
  cases command with
  | step =>
    obtain ⟨source', hstep⟩ := step_withSource hset h
    have hdraws : (m.withSource source).draws .step = m.draws .step := by
      simp only [draws, hstep]
      rfl
    -- the numbers that this machine has drawn tell where its source stands
    have hsource := (m.withSource source).random_step
    rw [hdraws, hstep] at hsource
    obtain rfl : source' = RandomSource.after source (m.draws .step) := hsource
    rw [perform, hstep]
    rfl
  | press key => exact m.setKey_withSource source key true
  | release key => exact m.setKey_withSource source key false
  | reset => rfl

theorem replay_withSource (hset : m.instructions ≠ .idle) (history : List Command)
    (h : ∀ i < m.drawn history,
      RandomSource.stream source i % 256 = RandomSource.stream m.state.random i % 256) :
    (m.withSource source).replay history =
      (m.replay history).withSource (RandomSource.after source (m.drawn history)) := by
  induction history generalizing m source with
  | nil => rfl
  | cons command rest ih =>
    have hnext : (m.withSource source).perform command =
        (m.perform command).withSource (RandomSource.after source (m.draws command)) := by
      apply perform_withSource hset command
      intro hone
      exact Byte.ofInt_congr (h 0 (by rw [drawn, hone]; omega))
    have hset' : (m.perform command).instructions ≠ .idle := by rwa [instructions_perform]
    have hagree : ∀ i < (m.perform command).drawn rest,
        RandomSource.stream (RandomSource.after source (m.draws command)) i % 256 =
          RandomSource.stream (m.perform command).state.random i % 256 := by
      intro i hi
      have hi' := h (m.draws command + i) (by rw [drawn]; omega)
      rw [random_perform]
      rwa [RandomSource.stream, RandomSource.stream, ← RandomSource.after_add,
        ← RandomSource.after_add] at hi'
    have hcons : (m.withSource source).replay (command :: rest) =
        ((m.withSource source).perform command).replay rest := rfl
    rw [hcons, hnext, ih hset' hagree, RandomSource.after_add]
    rfl

end Machine

end

/-! ### The main statement -/

namespace Machine

variable {ρ : Type} [RandomSource ρ]

/-- The random words that a history executes receive the numbers of the source in order, and nothing else
draws a number. If another source agrees modulo 256 on the numbers that are drawn, the history leads to
the same machine, with that source behind as many numbers. -/
theorem random_numbers_in_order (program : Program) (set : InstructionSet) (hset : set ≠ .idle)
    (frequency : Int) (mode : EdgeMode) (random : ρ) (history : List Command) :
    let start := powerOn program set frequency mode random
    let m := start.replay history
    let rolls := start.rolls history
    (∀ i r, rolls[i]? = some r → r.word.family = 0xC ∧
      (r.value.toNat : Int) = Int.land (RandomSource.stream random i) r.word.nn.toNat) ∧
    m.state.random = RandomSource.after random rolls.length ∧
    (∀ command, (command = .step → ∀ w, m.step.1 = .ok w → w.family ≠ 0xC) →
      (m.perform command).state.random = m.state.random) ∧
    ∀ {σ : Type} [RandomSource σ] (random' : σ) (n : Nat),
      (∀ i < n, RandomSource.stream random' i % 256 = RandomSource.stream random i % 256) →
      rolls.length ≤ n →
      (powerOn program set frequency mode random').replay history =
        m.withSource (RandomSource.after random' rolls.length) := by
  intro start m rolls
  have hlength : rolls.length = start.drawn history := length_rolls hset history
  refine ⟨?_, ?_, ?_, ?_⟩
  · intro i r hr
    obtain ⟨hC, hv⟩ := value_of_rolls hset hr
    rw [hv]
    exact ⟨hC, Byte.toNat_ofInt_and _ _⟩
  · rw [hlength]
    exact start.random_replay history
  · intro command hother
    have hset' : m.instructions ≠ .idle := by rwa [instructions_replay]
    have hnone : m.roll? command = none := by
      rw [Option.eq_none_iff_forall_not_mem]
      intro r hr
      obtain ⟨hstep, hw, hC, -⟩ := of_roll? hr
      exact hother hstep r.word hw hC
    have hsource := m.random_perform command
    rw [draws_of_roll?_eq_none hset' hnone] at hsource
    exact hsource
  · intro σ _ random' n hagree hle
    rw [hlength] at hle ⊢
    have hreplay : (start.withSource random').replay history =
        m.withSource (RandomSource.after random' (start.drawn history)) :=
      replay_withSource hset history fun i hi => hagree i (Nat.lt_of_lt_of_le hi hle)
    exact hreplay

/-- Numbers outside the range of a byte, a return that fails, and a reset between two random words. -/
theorem random_numbers_in_order_reset :
    let program : Program := ⟨[0xC0, 0xF3, 0x00, 0xEE], by decide⟩
    let history : List Command := [.step, .step, .press 3, .reset, .step, .step]
    let start := powerOn program .standard 600 .clip (⟨#[300, -6, 9], 0⟩ : Cycle)
    InstructionSet.standard ≠ .idle ∧
    start.rolls history = [⟨0xC0F3#16, 0x20⟩, ⟨0xC0F3#16, 0xF2⟩] ∧
    (∀ r, (start.rolls history)[1]? = some r →
      (r.value.toNat : Int) = Int.land (-6) r.word.nn.toNat) ∧
    (∀ i < 2, RandomSource.stream (⟨#[44, 250], 0⟩ : Cycle) i % 256 =
      RandomSource.stream (⟨#[300, -6, 9], 0⟩ : Cycle) i % 256) ∧
    (powerOn program .standard 600 .clip (⟨#[44, 250], 0⟩ : Cycle)).replay history =
      (start.replay history).withSource (⟨#[44, 250], 2⟩ : Cycle) := by
  intro program history start
  have hrolls : start.rolls history = [⟨0xC0F3#16, 0x20⟩, ⟨0xC0F3#16, 0xF2⟩] := by decide +kernel
  have hagree : ∀ i < 2, RandomSource.stream (⟨#[44, 250], 0⟩ : Cycle) i % 256 =
      RandomSource.stream (⟨#[300, -6, 9], 0⟩ : Cycle) i % 256 := by decide +kernel
  obtain ⟨hvalue, -, -, hsame⟩ := random_numbers_in_order program .standard (by decide) 600 .clip
    (⟨#[300, -6, 9], 0⟩ : Cycle) history
  refine ⟨by decide, hrolls, fun r hr => (hvalue 1 r hr).2, hagree, ?_⟩
  have hreplay := hsame (⟨#[44, 250], 0⟩ : Cycle) 2 hagree (Nat.le_of_eq (congrArg List.length hrolls))
  rw [hrolls] at hreplay
  exact hreplay

end Machine

end Chip8
