import Chip8.Proofs.Machine.Overlay
import Chip8.Proofs.Screen.Patterns

/-!
# Drawing over a drawing

Toggling patterns is addition modulo 2 of the pixels in which their bits land: the order does not matter,
and a pattern that is toggled twice at the same place leaves the rows as they were. So does a sprite that
is drawn twice, and its second drawing meets the pixels that were dark before the first. The main
statement is `drawings_cancel`.
-/

namespace Chip8

/-! ### Flips in any order -/

/-- The arguments of a toggled pattern. -/
structure Flip where
  vector : Int
  x : Int
  y : Int
  deriving DecidableEq, Repr

/-- The arguments name the same pattern at the same place. -/
def Flip.Agrees (f g : Flip) : Prop :=
  f.vector % 256 = g.vector % 256 ∧ f.x % 64 = g.x % 64 ∧ f.y % 32 = g.y % 32

instance (f g : Flip) : Decidable (f.Agrees g) := inferInstanceAs (Decidable (_ ∧ _))

namespace Screen

theorem rows_of_lit {s t : Screen}
    (h : ∀ (px : Fin 64) (py : Fin 32), s.lit px py = t.lit px py) : s.rows = t.rows := by
  apply Vector.ext
  intro i hi
  apply BitVec.eq_of_getMsbD_eq
  intro j hj
  have hpixel := h ⟨j, hj⟩ ⟨i, hi⟩
  rw [lit_eq, lit_eq] at hpixel
  exact hpixel

theorem eq_of_rows {s t : Screen} (hmode : t.edgeMode = s.edgeMode) (hrows : t.rows = s.rows) :
    t = { s with changed := t.changed } := by
  cases s
  cases t
  cases hmode
  cases hrows
  rfl

def flipAll (s : Screen) (flips : List Flip) : Screen :=
  flips.foldl (fun s f => s.flipPattern (Byte.ofInt f.vector) f.x f.y) s

/-- How many of the flips toggle a pixel. -/
def toggles (s : Screen) (flips : List Flip) (px : Fin 64) (py : Fin 32) : Nat :=
  flips.countP fun f => s.Meets f.vector f.x f.y px py

theorem odd_toggles_cons (s : Screen) (f : Flip) (flips : List Flip) (px : Fin 64) (py : Fin 32) :
    decide (Odd (s.toggles (f :: flips) px py)) =
      (decide (Odd (s.toggles flips px py)) ^^ decide (s.Meets f.vector f.x f.y px py)) :=
  odd_countP_cons _ f flips

/-- A pixel changes if an odd number of flips toggle it. -/
theorem lit_flipAll (s : Screen) (flips : List Flip) (px : Fin 64) (py : Fin 32) :
    (s.flipAll flips).lit px py = (s.lit px py ^^ decide (Odd (s.toggles flips px py))) := by
  induction flips generalizing s with
  | nil => simp [flipAll, toggles]
  | cons f rest ih =>
    let t := s.flipPattern (Byte.ofInt f.vector) f.x f.y
    have hlit : t.lit px py = (s.lit px py ^^ decide (s.Meets f.vector f.x f.y px py)) := by
      simp only [t, lit_flipPattern, meets_iff]
    have htoggles : t.toggles rest px py = s.toggles rest px py := rfl
    have hrest : (s.flipAll (f :: rest)).lit px py = (t.flipAll rest).lit px py := rfl
    rw [hrest, ih, htoggles, hlit, odd_toggles_cons, Bool.xor_assoc, Bool.xor_comm (decide (Odd _))]

theorem rows_flipAll_of_perm (s : Screen) {flips flips' : List Flip} (h : flips.Perm flips') :
    (s.flipAll flips).rows = (s.flipAll flips').rows := by
  apply rows_of_lit
  intro px py
  rw [lit_flipAll, lit_flipAll, toggles, toggles, h.countP_eq]

theorem meets_congr (s : Screen) {f g : Flip} (h : f.Agrees g) (px : Fin 64) (py : Fin 32) :
    s.Meets f.vector f.x f.y px py ↔ s.Meets g.vector g.x g.y px py := by
  obtain ⟨hv, hx, hy⟩ := h
  have hlands : ∀ i, s.edgeMode.Lands f.x i px ↔ s.edgeMode.Lands g.x i px := by
    intro i
    cases s.edgeMode <;> simp only [EdgeMode.Lands] <;> omega
  simp only [Meets, ← EdgeMode.covers_ofInt, EdgeMode.Covers, Byte.ofInt_congr hv, hy, hlands]

/-- Of two flips that agree the second undoes the first, whatever is toggled around them. -/
theorem rows_flipAll_of_agrees (s : Screen) {f g : Flip} (h : f.Agrees g)
    (before between after : List Flip) :
    (s.flipAll (before ++ f :: between ++ g :: after)).rows =
      (s.flipAll (before ++ between ++ after)).rows := by
  have hfront : (before ++ f :: between ++ g :: after).Perm
      (g :: f :: (before ++ between ++ after)) := by
    have hf : (before ++ f :: between ++ after).Perm (f :: (before ++ between ++ after)) :=
      List.perm_middle.append_right after
    exact List.perm_middle.trans (hf.cons g)
  rw [s.rows_flipAll_of_perm hfront]
  apply rows_of_lit
  intro px py
  rw [lit_flipAll, lit_flipAll, odd_toggles_cons, odd_toggles_cons,
    decide_eq_decide.2 (s.meets_congr h px py), Bool.xor_assoc, Bool.xor_self, Bool.xor_false]

end Screen

/-! ### A sprite drawn twice -/

section Drawing

variable {ρ : Type}

/-- The flag register is 1 if the proposition holds, and 0 if it does not. -/
def State.FlagTells (s : State ρ) (holds : Prop) : Prop :=
  (holds → s.register .flag = 1) ∧ (¬ holds → s.register .flag = 0)

/-- What the states after a first and a second drawing of one sprite have of the state before. -/
structure State.Redrawn (s : State ρ) (w : Word) (first second : State ρ) : Prop where
  rows : second.screen.rows = s.screen.rows
  firstFlag : first.FlagTells (∃ (px : Fin 64) (py : Fin 32),
    (s.drawn w).Covers s.screen.edgeMode px py ∧ s.screen.lit px py = true)
  secondFlag : second.FlagTells (∃ (px : Fin 64) (py : Fin 32),
    (s.drawn w).Covers s.screen.edgeMode px py ∧ s.screen.lit px py = false)
  registers : ∀ r ≠ Register.flag, second.register r = s.register r
  rest : second = { s with
    registers := second.registers
    screen := { s.screen with changed := second.screen.changed } }

theorem flagTells_setFlag (s : State ρ) {flag : Bool} {holds : Prop} (h : flag = true ↔ holds) :
    (s.setFlag flag).FlagTells holds := by
  have hflag := s.register_setFlag .flag flag
  rw [if_pos rfl] at hflag
  constructor
  · intro hp
    rw [hflag, if_pos (h.2 hp)]
  · intro hp
    rw [hflag, if_neg (mt h.1 hp)]

variable [RandomSource ρ]

theorem Word.execute_of_draw {set : InstructionSet} {s : State ρ} {w : Word} (hset : set ≠ .idle)
    (hw : w.family = 0xD) (hfits : s.index.val + w.n.toNat ≤ memorySize) :
    w.execute set s = .ok () ((Instruction.draw w.x w.y w.n).effect set s) := by
  have hdecode : Instruction.decode? w = some (.draw w.x w.y w.n) :=
    Instruction.decode?_eq_some_iff.2 (.draw hw)
  have hinside : Memory.Fits memorySize s.index.val w.n.toNat := ⟨by omega, by omega⟩
  have hfault : (Instruction.draw w.x w.y w.n).fault? s = none := if_pos hinside
  rw [execute_of_decode? hset hdecode, hfault]

namespace Instruction

variable (set : InstructionSet) {s : State ρ} {w : Word}

theorem register_effect_draw (s : State ρ) (w : Word) {r : Register} (hr : r ≠ .flag) :
    ((draw w.x w.y w.n).effect set s).register r = s.register r := by
  have hkept := s.register_setFlag r (s.screen.hitsSprite (s.register w.x).toNat
    (s.register w.y).toNat (s.sprite w.n.toNat))
  rw [if_neg (Ne.symm hr)] at hkept
  exact hkept

/-- Where the flag register is no coordinate, a second drawing has the sprite of the first. -/
theorem drawn_effect_draw (hx : w.x ≠ .flag) (hy : w.y ≠ .flag) :
    ((draw w.x w.y w.n).effect set s).drawn w = s.drawn w := by
  simp only [State.drawn, register_effect_draw set s w hx, register_effect_draw set s w hy,
    memory_effect, index_effect]

theorem flagTells_effect_draw (s : State ρ) (w : Word) :
    ((draw w.x w.y w.n).effect set s).FlagTells (∃ (px : Fin 64) (py : Fin 32),
      (s.drawn w).Covers s.screen.edgeMode px py ∧ s.screen.lit px py = true) :=
  flagTells_setFlag _ (Screen.hitsSprite_iff (Machine.length_drawn s w))

theorem redrawn (hx : w.x ≠ .flag) (hy : w.y ≠ .flag) :
    let first := (draw w.x w.y w.n).effect set s
    s.Redrawn w first ((draw w.x w.y w.n).effect set first) := by
  intro first
  let second := (draw w.x w.y w.n).effect set first
  have hsprite : first.drawn w = s.drawn w := drawn_effect_draw set hx hy
  have hmode : first.screen.edgeMode = s.screen.edgeMode := Machine.edgeMode_effect set _ s
  have hlit : ∀ (px : Fin 64) (py : Fin 32), first.screen.lit px py =
      (s.screen.lit px py ^^ decide ((s.drawn w).Covers s.screen.edgeMode px py)) :=
    Machine.lit_effect_draw set s w
  have hrows : second.screen.rows = s.screen.rows := by
    apply Screen.rows_of_lit
    intro px py
    have hagain := Machine.lit_effect_draw set first w px py
    rw [hsprite, hmode, hlit, Bool.xor_assoc, Bool.xor_self, Bool.xor_false] at hagain
    exact hagain
  have hflag := flagTells_effect_draw set first w
  -- a pixel that the sprite covers is lit before the second drawing if it was dark before the first
  have hdark : (∃ (px : Fin 64) (py : Fin 32),
      (first.drawn w).Covers first.screen.edgeMode px py ∧ first.screen.lit px py = true) ↔
      ∃ (px : Fin 64) (py : Fin 32),
        (s.drawn w).Covers s.screen.edgeMode px py ∧ s.screen.lit px py = false := by
    simp only [hsprite, hmode, hlit]
    refine exists_congr fun px => exists_congr fun py => and_congr_right fun hc => ?_
    rw [decide_eq_true hc, Bool.xor_true, Bool.not_eq_true']
  rw [hdark] at hflag
  refine {
    rows := hrows
    firstFlag := flagTells_effect_draw set s w
    secondFlag := hflag
    registers := ?_
    rest := ?_ }
  · intro r hr
    rw [register_effect_draw set first w hr, register_effect_draw set s w hr]
  · have hscreen := Screen.eq_of_rows ((Machine.edgeMode_effect set _ first).trans hmode) hrows
    have hsecond : second = { s with registers := second.registers, screen := second.screen } := rfl
    rw [hscreen] at hsecond
    exact hsecond

end Instruction

end Drawing

/-! ### The main statement -/

/-- The rows that a list of flips leaves do not depend on their order, and two flips that agree can be
left out. A sprite whose coordinates are not in the flag register leaves the rows as they were when it
is drawn twice in a row. -/
theorem drawings_cancel {ρ : Type} [RandomSource ρ] :
    (∀ (s : Screen) (flips flips' : List Flip), flips.Perm flips' →
      (s.flipAll flips).rows = (s.flipAll flips').rows) ∧
    (∀ (s : Screen) (before between after : List Flip) (f g : Flip), f.Agrees g →
      (s.flipAll (before ++ f :: between ++ g :: after)).rows =
        (s.flipAll (before ++ between ++ after)).rows) ∧
    ∀ (set : InstructionSet) (s : State ρ) (w : Word), set ≠ .idle → w.family = 0xD →
      w.x ≠ .flag → w.y ≠ .flag → s.index.val + w.n.toNat ≤ 4096 →
      ∃ first second, w.execute set s = .ok () first ∧ w.execute set first = .ok () second ∧
        s.Redrawn w first second := by
  refine ⟨fun s _ _ => s.rows_flipAll_of_perm, ?_, ?_⟩
  · intro s before between after f g h
    exact s.rows_flipAll_of_agrees h before between after
  · intro set s w hset hw hx hy hfits
    have hfirst := Word.execute_of_draw hset hw hfits
    refine ⟨_, _, hfirst, Word.execute_of_draw hset hw ?_, Instruction.redrawn set hx hy⟩
    rw [Instruction.index_effect]
    exact hfits

/-- Two ways to name one flip at the right edge, and the glyph of the digit 0 that is drawn and drawn
again at column 61 of a dark screen. -/
theorem drawings_cancel_glyph :
    let f : Flip := ⟨-1, 60, 3⟩
    let g : Flip := ⟨255, -4, 35⟩
    let other : Flip := ⟨0x81, 0x7F, -29⟩
    let s : State Cycle :=
      { (Machine.started ⟨[], by decide⟩).state.setRegister 0 61 with index := .ofBits 0x050 }
    ([f, other].Perm [other, f] ∧
      (s.screen.flipAll [f, other]).rows = (s.screen.flipAll [other, f]).rows) ∧
    (f.Agrees g ∧ (s.screen.flipAll [other, f, other, g]).rows = (s.screen.flipAll [other, other]).rows) ∧
    s.index.val + (Word.n 0xD015#16).toNat ≤ 4096 ∧
    ∃ first second, Word.execute .standard 0xD015#16 s = .ok () first ∧
      Word.execute .standard 0xD015#16 first = .ok () second ∧ s.Redrawn 0xD015#16 first second ∧
      first.register .flag = 0 ∧ second.register .flag = 1 := by
  intro f g other s
  obtain ⟨hperm, hagree, hdraw⟩ := drawings_cancel (ρ := Cycle)
  have hswap : [f, other].Perm [other, f] := .swap other f []
  have hfg : f.Agrees g := by decide
  refine ⟨⟨hswap, hperm _ _ _ hswap⟩, ⟨hfg, hagree _ [other] [other] [] f g hfg⟩, by decide, ?_⟩
  obtain ⟨first, second, hfirst, hsecond, hr⟩ :=
    hdraw .standard s 0xD015#16 (by decide) (by decide) (by decide) (by decide) (by decide)
  refine ⟨first, second, hfirst, hsecond, hr, hr.firstFlag.2 ?_, hr.secondFlag.1 ?_⟩
  · rintro ⟨px, py, -, hl⟩
    rw [show s.screen.lit px py = false from Screen.lit_blank .clip px py] at hl
    cases hl
  · exact ⟨61, 0, by decide +kernel, Screen.lit_blank .clip 61 0⟩

end Chip8
