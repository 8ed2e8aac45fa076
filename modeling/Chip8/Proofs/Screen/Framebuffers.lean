import Chip8.Proofs.Instruction.Component
import Chip8.Proofs.Screen.HeldViews

/-!
# Framebuffers

A console numbers its framebuffers by the resets before them. Here a machine only refers to its
screen, which lies in a store with the earlier ones: whatever has the store may redraw the framebuffer
that is referred to, or begin another. An instruction does no more than redraw, so a cycle leaves the
reference and the other framebuffers alone, and the numbers of a console are the references. The main
statements are `Framed.step_spec` and `Console.look_framed`.
-/

namespace Chip8

/-! ### The store -/

/-- Something beside a store of framebuffers and the reference to one of them. -/
structure Framed (σ : Type) where
  rest : σ
  framebuffers : Array Screen
  current : Nat
  current_lt : current < framebuffers.size

namespace Framed

variable {σ τ υ : Type}

def screen (s : Framed σ) : Screen :=
  have := s.current_lt
  s.framebuffers[s.current]

def beside (s : Framed σ) (rest : τ) : Framed τ := { s with rest := rest }

def redraw (s : Framed σ) (f : Screen → Screen) : Framed σ where
  rest := s.rest
  framebuffers := s.framebuffers.setIfInBounds s.current (f s.screen)
  current := s.current
  current_lt := by
    rw [Array.size_setIfInBounds]
    exact s.current_lt

def begin (s : Framed σ) (screen : Screen) : Framed σ where
  rest := s.rest
  framebuffers := s.framebuffers.push screen
  current := s.framebuffers.size
  current_lt := by
    rw [Array.size_push]
    exact Nat.lt_succ_self _

theorem screen_redraw (s : Framed σ) (f : Screen → Screen) : (s.redraw f).screen = f s.screen :=
  Array.getElem_setIfInBounds_self _

theorem screen_begin (s : Framed σ) (screen : Screen) : (s.begin screen).screen = screen :=
  Array.getElem_push_eq

/-- Both refer to the same framebuffer, and all others are the same. -/
structure Keeps (s : Framed σ) (t : Framed τ) : Prop where
  current : t.current = s.current
  framebuffers : t.framebuffers = s.framebuffers.setIfInBounds s.current t.screen

theorem keeps_redraw (s : Framed σ) (f : Screen → Screen) : s.Keeps (s.redraw f) where
  current := rfl
  framebuffers := by
    rw [screen_redraw]
    rfl

theorem keeps_beside (s : Framed σ) (rest : τ) : s.Keeps (s.beside rest) where
  current := rfl
  framebuffers := by
    -- what lies in the store is written back to its place
    have hself := Array.set_getElem_self s.current_lt
    rw [Array.setIfInBounds_def, dif_pos s.current_lt]
    exact hself.symm

theorem Keeps.trans {s : Framed σ} {t : Framed τ} {u : Framed υ} (h : s.Keeps t) (h' : t.Keeps u) :
    s.Keeps u where
  current := h'.current.trans h.current
  framebuffers := by
    rw [h'.framebuffers, h.framebuffers, h.current, Array.setIfInBounds_setIfInBounds]

end Framed

/-! ### Computations that have the store -/

namespace Framed

variable {ρ : Type}

/-- The state whose screen is the framebuffer. What the state beside the store has as its screen stands
for nothing. -/
def state (s : Framed (State ρ)) : State ρ := { s.rest with screen := s.screen }

theorem state_beside {s : Framed (State ρ)} {t : State ρ} (h : t.screen = s.screen) :
    (s.beside t).state = t := by
  show { t with screen := s.screen } = t
  rw [← h]

end Framed

/-- Computations on a state that refers to its screen. -/
abbrev FramedExec (ρ : Type) := EStateM Fault (Framed (State ρ))

namespace FramedExec

variable {ρ α β : Type}

/-- A computation that has no store. It may read the screen; what it makes of the screen is lost. -/
def aside (x : Exec ρ α) : FramedExec ρ α := fun s =>
  match x s.state with
  | .ok a t => .ok a (s.beside t)
  | .error f t => .error f (s.beside t)

def redraw (f : Screen → Screen) : FramedExec ρ Unit := modify (·.redraw f)

/-- With the store and without it, the computations do the same, and no framebuffer but the one that is
referred to is altered. -/
structure Performs (x : FramedExec ρ α) (y : Exec ρ α) : Prop where
  ok : ∀ s a t, y s.state = .ok a t → ∃ s', x s = .ok a s' ∧ s'.state = t ∧ s.Keeps s'
  error : ∀ s f t, y s.state = .error f t → ∃ s', x s = .error f s' ∧ s'.state = t ∧ s.Keeps s'

theorem performs_aside {x : Exec ρ α} (hok : ∀ s a t, x s = .ok a t → t.screen = s.screen)
    (herror : ∀ s f t, x s = .error f t → t.screen = s.screen) : Performs (aside x) x where
  ok := by
    intro s a t h
    exact ⟨s.beside t, by simp only [aside, h], Framed.state_beside (hok _ a t h), s.keeps_beside t⟩
  error := by
    intro s f t h
    exact ⟨s.beside t, by simp only [aside, h], Framed.state_beside (herror _ f t h), s.keeps_beside t⟩

end FramedExec

/-! ### Instructions -/

namespace Instruction

open FramedExec (aside redraw Performs performs_aside)

variable {ρ : Type} [RandomSource ρ] {set : InstructionSet} {i : Instruction}

/-- Executes an instruction on a state that refers to its screen. Two instructions redraw it. -/
def executeFramed (set : InstructionSet) : Instruction → FramedExec ρ Unit
  | clear => redraw Screen.clear
  | draw x y height => do
    let s := (← get).state
    let column := (s.register x).toNat
    let line := (s.register y).toNat
    let sprite ← aside (Exec.readBlock s.index.val height.toNat)
    redraw (·.flipSprite column line sprite)
    aside (modify (·.setFlag (s.screen.hitsSprite column line sprite)))
  | i => aside (i.execute set)

theorem fault?_of_execute_error {s t : State ρ} {f : Fault} (h : i.execute set s = .error f t) :
    i.fault? s = some f ∧ t = s := by
  rw [execute_eq] at h
  cases hf : i.fault? s with
  | some f' =>
    rw [hf] at h
    cases h
    exact ⟨rfl, rfl⟩
  | none =>
    rw [hf] at h
    cases h

theorem fault?_of_execute_ok {s t : State ρ} (h : i.execute set s = .ok () t) :
    i.fault? s = none ∧ t = i.effect set s := by
  rw [execute_eq] at h
  cases hf : i.fault? s with
  | some f =>
    rw [hf] at h
    cases h
  | none =>
    rw [hf] at h
    cases h
    exact ⟨rfl, rfl⟩

/-- An instruction that leaves the screen alone needs no store. -/
theorem performs_of_screen_effect (set : InstructionSet) (i : Instruction)
    (h : ∀ s : State ρ, (i.effect set s).screen = s.screen) :
    Performs (aside (i.execute set)) (i.execute set : Exec ρ Unit) := by
  apply performs_aside
  · intro s _ t ht
    rw [(fault?_of_execute_ok ht).2]
    exact h s
  · intro s f t ht
    rw [(fault?_of_execute_error ht).2]

theorem performs_clear :
    Performs (redraw Screen.clear) (clear.execute set : Exec ρ Unit) where
  ok := by
    rintro s _ _ ⟨⟩
    refine ⟨s.redraw Screen.clear, rfl, ?_, s.keeps_redraw _⟩
    rw [Framed.state, Framed.screen_redraw]
    rfl
  error := by
    rintro s f t ⟨⟩

theorem performs_draw (x y : Register) (height : BitVec 4) :
    Performs (executeFramed set (draw x y height)) ((draw x y height).execute set : Exec ρ Unit) where
  ok := by
    intro s _ t ht
    obtain ⟨hf, rfl⟩ := fault?_of_execute_ok ht
    have hread : aside (Exec.readBlock s.state.index.val height.toNat) s =
        .ok (s.state.sprite height.toNat) (s.beside s.state) := by
      have hfits : Memory.outside? memorySize s.state.index.val height.toNat = none := hf
      rw [aside, Exec.readBlock_eq, hfits]
      rfl
    let drawn := (s.beside s.state).redraw fun screen => screen.flipSprite (s.state.register x).toNat
      (s.state.register y).toNat (s.state.sprite height.toNat)
    let hits := s.screen.hitsSprite (s.state.register x).toNat (s.state.register y).toNat
      (s.state.sprite height.toNat)
    refine ⟨drawn.beside (drawn.state.setFlag hits), ?_, ?_, ?_⟩
    · rw [executeFramed, Exec.bind_get, Exec.bind_of_ok hread]
      rfl
    · show { drawn.state.setFlag hits with screen := drawn.screen } = _
      rw [Framed.screen_redraw]
      rfl
    · exact ((s.keeps_beside s.state).trans (Framed.keeps_redraw _ _)).trans (drawn.keeps_beside _)
  error := by
    intro s f t ht
    obtain ⟨hf, rfl⟩ := fault?_of_execute_error ht
    have hread : aside (Exec.readBlock s.state.index.val height.toNat) s =
        .error f (s.beside s.state) := by
      have hfits : Memory.outside? memorySize s.state.index.val height.toNat = some f := hf
      rw [aside, Exec.readBlock_eq, hfits]
    refine ⟨s.beside s.state, ?_, rfl, s.keeps_beside _⟩
    rw [executeFramed, Exec.bind_get, Exec.bind_of_error hread]

theorem performs_execute (set : InstructionSet) (i : Instruction) :
    Performs (i.executeFramed set) (i.execute set : Exec ρ Unit) := by
  -- all but two instructions have effects without the screen
  have hscreen := screen_effect (ρ := ρ) set i
  have haside := performs_of_screen_effect (ρ := ρ) set i
  cases i with
  | clear => exact performs_clear
  | draw x y height => exact performs_draw x y height
  | _ => exact haside hscreen

end Instruction

/-! ### Words -/

namespace Word

open FramedExec (Performs)

variable {ρ : Type} [RandomSource ρ]

/-- Decodes and executes a word on a state that refers to its screen. -/
def executeFramed (set : InstructionSet) (w : Word) : FramedExec ρ Unit :=
  match Instruction.decode? w with
  | none => throw (.unknownInstruction w)
  | some i => if set = .idle then pure () else i.executeFramed set

theorem performs_execute (set : InstructionSet) (w : Word) :
    Performs (w.executeFramed set) (w.execute set : Exec ρ Unit) := by
  unfold executeFramed execute
  cases Instruction.decode? w with
  | none =>
    constructor
    · rintro s _ t ⟨⟩
    · rintro s _ _ ⟨⟩
      exact ⟨s, rfl, rfl, s.keeps_beside s.rest⟩
  | some i =>
    by_cases hset : set = .idle
    · simp only [if_pos hset]
      constructor
      · rintro s _ _ ⟨⟩
        exact ⟨s, rfl, rfl, s.keeps_beside s.rest⟩
      · rintro s f t ⟨⟩
    · simp only [if_neg hset]
      exact i.performs_execute set

end Word

/-! ### Cycles and resets -/

namespace Framed

variable {ρ : Type}

/-- The machine whose screen is the framebuffer. -/
def machine (m : Framed (Machine ρ)) : Machine ρ :=
  { m.rest with state := { m.rest.state with screen := m.screen } }

def prepare (period cycle : Nat) (s : Framed (State ρ)) : Framed (State ρ) :=
  let s := if cycle % period = 0 then s.beside s.rest.tick else s
  s.redraw Screen.settle

/-- The power-on state of the same program, with a new framebuffer. -/
def reset (m : Framed (Machine ρ)) : Framed (Machine ρ) :=
  (m.beside m.rest.reset).begin (Screen.blank m.rest.edgeMode)

def after (m : Framed (Machine ρ)) (s : Framed (State ρ)) : Framed (Machine ρ) :=
  s.beside (m.rest.after s.rest)

theorem state_prepare (period cycle : Nat) (s : Framed (State ρ)) :
    (s.prepare period cycle).state = Machine.prepare period cycle s.state := by
  unfold prepare Machine.prepare state
  rw [screen_redraw]
  by_cases h : cycle % period = 0
  · simp only [if_pos h]
    rfl
  · simp only [if_neg h]
    rfl

theorem keeps_prepare (period cycle : Nat) (s : Framed (State ρ)) :
    s.Keeps (s.prepare period cycle) := by
  unfold prepare
  by_cases h : cycle % period = 0
  · simp only [if_pos h]
    exact (s.keeps_beside s.rest.tick).trans (keeps_redraw _ _)
  · simp only [if_neg h]
    exact s.keeps_redraw _

theorem machine_setKey (m : Framed (Machine ρ)) (key : Int) (down : Bool) :
    (m.beside ((m.rest.setKey key down).toOption.getD m.rest)).machine =
      (m.machine.setKey key down).toOption.getD m.machine := by
  unfold Machine.setKey
  cases Key.ofInt? key <;> rfl

theorem machine_reset (m : Framed (Machine ρ)) : m.reset.machine = m.machine.reset := by
  unfold machine
  rw [reset, screen_begin]
  rfl

def prepared (m : Framed (Machine ρ)) : Framed (State ρ) :=
  (m.beside m.rest.state).prepare (Machine.period m.rest.frequency) (m.rest.cycle + 1)

theorem state_prepared (m : Framed (Machine ρ)) : m.prepared.state = m.machine.prepared :=
  (state_prepare _ _ _).trans m.machine.prepare_eq

theorem screen_prepared (m : Framed (Machine ρ)) : m.machine.prepared.screen = m.prepared.screen :=
  congrArg State.screen m.state_prepared.symm

theorem keeps_prepared (m : Framed (Machine ρ)) : m.Keeps m.prepared :=
  (m.keeps_beside _).trans (keeps_prepare _ _ _)

theorem fetch_of_lt {m : Framed (Machine ρ)} (h : m.machine.state.pc.val + 1 < memorySize) :
    FramedExec.aside Machine.fetch m.prepared =
      .ok m.machine.nextWord (m.prepared.beside m.machine.fetched) := by
  rw [FramedExec.aside, state_prepared, Machine.fetch_of_lt h]

theorem fetch_of_le {m : Framed (Machine ρ)} (h : memorySize ≤ m.machine.state.pc.val + 1) :
    FramedExec.aside Machine.fetch m.prepared =
      .error (.fetchPastEnd m.machine.state.pc.val) (m.prepared.beside m.machine.prepared) := by
  rw [FramedExec.aside, state_prepared, Machine.fetch_of_le h]

variable [RandomSource ρ]

/-- Runs one cycle on a state that refers to its screen. -/
def step (m : Framed (Machine ρ)) : Except Report Word × Framed (Machine ρ) :=
  let cycle := m.rest.cycle + 1
  let address := m.rest.state.pc.val
  match FramedExec.aside Machine.fetch m.prepared with
  | .error fault s => (.error ⟨fault, cycle, address, none⟩, m.after s)
  | .ok word s =>
    match word.executeFramed m.rest.instructions s with
    | .error fault s => (.error ⟨fault, cycle, address, some word⟩, m.after s)
    | .ok () s => (.ok word, m.after s)

def perform (m : Framed (Machine ρ)) : Command → Framed (Machine ρ)
  | .step => m.step.2
  | .press key => m.beside ((m.rest.press key).toOption.getD m.rest)
  | .release key => m.beside ((m.rest.release key).toOption.getD m.rest)
  | .reset => m.reset

def replay (m : Framed (Machine ρ)) (history : List Command) : Framed (Machine ρ) :=
  history.foldl perform m

/-- A cycle does with the store what it does without, and begins no framebuffer. -/
theorem step_spec (m : Framed (Machine ρ)) :
    m.step.1 = m.machine.step.1 ∧ m.step.2.machine = m.machine.step.2 ∧ m.Keeps m.step.2 := by
  by_cases hp : m.machine.state.pc.val + 1 < memorySize
  · let s := m.prepared.beside m.machine.fetched
    have hfetch : FramedExec.aside Machine.fetch m.prepared = .ok m.machine.nextWord s := fetch_of_lt hp
    have hfetched : s.state = m.machine.fetched := state_beside m.screen_prepared
    have hkeeps : m.Keeps s := m.keeps_prepared.trans (m.prepared.keeps_beside _)
    have hword := m.machine.nextWord.performs_execute (ρ := ρ) m.rest.instructions
    -- however the word ends, the executors with the store end the same way and keep the reference
    cases hexec : m.machine.nextWord.execute m.rest.instructions m.machine.fetched with
    | error f t =>
      obtain ⟨s', hs', rfl, hkeeps'⟩ := hword.error s f t (by rw [hfetched, hexec])
      have hstep : m.step = (.error ⟨f, m.rest.cycle + 1, m.rest.state.pc.val,
          some m.machine.nextWord⟩, m.after s') := by
        simp only [step, hfetch, hs']
      rw [hstep, Machine.step_of_execute_error (Machine.fetch_of_lt hp) hexec]
      exact ⟨rfl, rfl, (hkeeps.trans hkeeps').trans (s'.keeps_beside _)⟩
    | ok u t =>
      obtain ⟨s', hs', rfl, hkeeps'⟩ := hword.ok s u t (by rw [hfetched, hexec])
      have hstep : m.step = (.ok m.machine.nextWord, m.after s') := by
        simp only [step, hfetch, hs']
      rw [hstep, Machine.step_of_execute_ok (Machine.fetch_of_lt hp) hexec]
      exact ⟨rfl, rfl, (hkeeps.trans hkeeps').trans (s'.keeps_beside _)⟩
  · have hle := Nat.not_lt.1 hp
    let s := m.prepared.beside m.machine.prepared
    have hstep : m.step = (.error ⟨.fetchPastEnd m.machine.state.pc.val, m.rest.cycle + 1,
        m.rest.state.pc.val, none⟩, m.after s) := by
      simp only [step, fetch_of_le hle, s]
    rw [hstep, Machine.step_of_le hle]
    refine ⟨rfl, ?_, (m.keeps_prepared.trans (m.prepared.keeps_beside _)).trans (s.keeps_beside _)⟩
    exact congrArg m.machine.after (state_beside m.screen_prepared)

theorem machine_perform (m : Framed (Machine ρ)) (command : Command) :
    (m.perform command).machine = m.machine.perform command := by
  cases command with
  | step => exact m.step_spec.2.1
  | press key => exact m.machine_setKey key true
  | release key => exact m.machine_setKey key false
  | reset => exact m.machine_reset

/-- Only a reset begins a framebuffer. -/
theorem keeps_perform (m : Framed (Machine ρ)) {command : Command} (h : command ≠ .reset) :
    m.Keeps (m.perform command) := by
  cases command with
  | step => exact m.step_spec.2.2
  | press | release => exact m.keeps_beside _
  | reset => exact absurd rfl h

end Framed

/-! ### Consoles -/

namespace Console

variable {ρ : Type}

/-- The machine of a console with its framebuffers in a store. -/
def framed (c : Console ρ) : Framed (Machine ρ) where
  rest := c.machine
  framebuffers := c.retired.push c.machine.state.screen
  current := c.retired.size
  current_lt := by
    rw [Array.size_push]
    exact Nat.lt_succ_self _

/-- The machine and its framebuffers are those of the console. -/
structure Shows (c : Console ρ) (m : Framed (Machine ρ)) : Prop where
  machine : m.machine = c.machine
  current : m.current = c.view.generation
  framebuffers : m.framebuffers = c.retired.push c.machine.state.screen

theorem shows_framed (c : Console ρ) : c.Shows c.framed where
  machine := by
    have hscreen : c.framed.screen = c.machine.state.screen := Array.getElem_push_eq
    rw [Framed.machine, hscreen]
    rfl
  current := rfl
  framebuffers := rfl

theorem setIfInBounds_push (screens : Array Screen) (old new : Screen) :
    (screens.push old).setIfInBounds screens.size new = screens.push new := by
  apply Array.ext_getElem?
  intro i
  grind

section

variable {c : Console ρ} {m : Framed (Machine ρ)}

theorem Shows.reset (h : c.Shows m) : c.reset.Shows m.reset where
  machine := by
    rw [m.machine_reset, h.machine]
    rfl
  current := by
    show m.framebuffers.size = (c.retired.push c.machine.state.screen).size
    rw [h.framebuffers]
  framebuffers := by
    have hmode : m.machine.edgeMode = c.machine.edgeMode := congrArg Machine.edgeMode h.machine
    show m.framebuffers.push (Screen.blank m.machine.edgeMode) = _
    rw [h.framebuffers, hmode]
    rfl

/-- A view is a reference: what it shows is the framebuffer that is referred to. -/
theorem Shows.look_eq (h : c.Shows m) {v : HeldView} (hv : v.generation ≤ c.view.generation) :
    m.framebuffers[v.generation]?.map Screen.view = some (c.look v) := by
  rw [h.framebuffers, Array.getElem?_push, look]
  by_cases hlive : v.generation = c.retired.size
  · rw [if_pos hlive, hlive, Array.getElem?_size]
    rfl
  · have hlt : v.generation < c.retired.size := Nat.lt_of_le_of_ne hv hlive
    rw [if_neg hlive, Array.getElem?_eq_getElem hlt]
    rfl

variable [RandomSource ρ]

theorem Shows.perform_of_keeps (h : c.Shows m) {command : Command} (hr : command ≠ .reset) :
    (c.perform command).Shows (m.perform command) := by
  have hkeeps := m.keeps_perform hr
  have hmachine : (m.perform command).machine = (c.perform command).machine := by
    rw [m.machine_perform, h.machine, c.machine_perform]
  have hscreen : (m.perform command).screen = (c.perform command).machine.state.screen :=
    congrArg (fun m : Machine ρ => m.state.screen) hmachine
  have hretired := c.retired_perform hr
  refine ⟨hmachine, ?_, ?_⟩
  · rw [hkeeps.current, h.current, view, view, hretired]
  · rw [hkeeps.framebuffers, h.framebuffers, h.current, hscreen, hretired]
    exact setIfInBounds_push _ _ _

theorem Shows.perform (h : c.Shows m) (command : Command) :
    (c.perform command).Shows (m.perform command) := by
  by_cases hr : command = .reset
  · subst hr
    exact h.reset
  · exact h.perform_of_keeps hr

theorem Shows.replay (h : c.Shows m) (history : List Command) :
    (c.replay history).Shows (m.replay history) := by
  induction history generalizing c m with
  | nil => exact h
  | cons command rest ih => exact ih (h.perform command)

end

/-- Whatever has been done, a console shows through its views the framebuffers that they refer to. -/
theorem look_framed [RandomSource ρ] (c : Console ρ) (history : List Command) {v : HeldView}
    (hv : v.generation ≤ (c.replay history).view.generation) :
    (c.framed.replay history).framebuffers[v.generation]?.map Screen.view =
      some ((c.replay history).look v) :=
  (c.shows_framed.replay history).look_eq hv

end Console

end Chip8
