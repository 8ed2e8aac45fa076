import Chip8.Execution

/-!
# Faults and effects of instructions

Executing an instruction is a test and an update. `Instruction.fault?` finds, in the state before
the instruction, the fault it meets, and `Instruction.effect` is the state that an instruction
without a fault leaves. The main statement is `Instruction.execute_eq`: a fault is found before
anything is written.
-/

namespace Chip8

/-! ### Checked operations -/

namespace Address

/-- The address that lies `delta` bytes further on, or the end of the range that is nearest. -/
def moved (a : Address) (delta : Int) : Address := ⟨min (a.val + delta).toNat 0xFFFF, by omega⟩

def overflow? (v : Int) : Option Fault :=
  if 0 ≤ v ∧ v ≤ 0xFFFF then none else some (.addressOverflow v)

theorem overflow?_eq_none_iff {v : Int} : overflow? v = none ↔ 0 ≤ v ∧ v ≤ 0xFFFF := by
  unfold overflow?
  split <;> simp_all

theorem val_moved {a : Address} {delta : Int} (h : overflow? (a.val + delta) = none) :
    ((a.moved delta).val : Int) = a.val + delta := by
  have hr := overflow?_eq_none_iff.1 h
  simp only [moved]
  omega

-- opened only by `val_moved`: comparing states must not compute addresses
attribute [irreducible] moved

theorem offset_eq (a : Address) (delta : Int) :
    a.offset delta = match overflow? (a.val + delta) with
      | some f => .error f
      | none => .ok (a.moved delta) := by
  cases h : overflow? (a.val + delta) with
  | some f =>
    unfold overflow? at h
    unfold offset ofInt
    split at h
    · cases h
    · rename_i hr
      cases h
      rw [dif_neg hr]
  | none => exact ofInt_eq_ok_iff.2 (val_moved h).symm

end Address

namespace CallStack

def pushed (s : CallStack) (a : Address) : CallStack := (s.push a).toOption.getD s

/-- The newest return address; the lowest address if there is none. -/
def top (s : CallStack) : Address := s.newestFirst.head?.getD .zero

def popped (s : CallStack) : CallStack :=
  ⟨s.newestFirst.tail, by have := s.length_le; simp only [List.length_tail]; omega⟩

theorem push_eq (s : CallStack) (a : Address) :
    s.push a = if s.depth < stackSize then .ok (s.pushed a) else .error .stackOverflow := by
  unfold pushed push
  split <;> rfl

theorem pop_eq (s : CallStack) :
    s.pop = if s.depth = 0 then .error .stackUnderflow else .ok (s.top, s.popped) := by
  obtain ⟨l, hl⟩ := s
  cases l <;> rfl

end CallStack

namespace Memory

variable {size : Nat}

/-- The bytes of a block that lies inside memory. -/
def block (m : Memory size) (start length : Nat) : List Byte :=
  (List.range length).map fun i => m.byteAt (start + i)

def outside? (size : Nat) (address length : Int) : Option Fault :=
  if Fits size address length then none else some (.outOfMemory address length)

theorem outside?_of_fits {address length : Int} (h : Fits size address length) :
    outside? size address length = none := if_pos h

theorem outside?_of_not_fits {address length : Int} (h : ¬ Fits size address length) :
    outside? size address length = some (.outOfMemory address length) := if_neg h

theorem fits_memory_iff {start length : Nat} :
    Fits memorySize start length ↔ start + length ≤ 4096 := by
  simp only [Fits, memorySize]
  omega

theorem check_eq (size : Nat) (address length : Int) :
    check size address length = match outside? size address length with
      | some f => .error f
      | none => .ok () := by
  unfold check outside?
  split <;> rfl

theorem readBlock_eq (m : Memory size) (start length : Nat) :
    m.readBlock start length = match outside? size start length with
      | some f => .error f
      | none => .ok (m.block start length) := by
  have hn : ¬ ((start : Int) + length < 0) := by omega
  have hl : ((start : Int) + length - start).toNat = length := by omega
  rw [readBlock, check_eq]
  cases outside? size start length with
  | some f => rfl
  | none =>
    simp only [if_neg hn, hl, Int.toNat_natCast]
    rfl

end Memory

/-! ### Steps of an execution -/

namespace Exec

section

variable {σ α β : Type} {s t : σ}

theorem bind_get (f : σ → EStateM Fault σ α) : (get >>= f) s = f s s := rfl

theorem bind_of_ok {x : EStateM Fault σ α} {a : α} (h : x s = .ok a t) (f : α → EStateM Fault σ β) :
    (x >>= f) s = f a t := by
  simp only [bind, EStateM.bind, h]

theorem bind_of_error {x : EStateM Fault σ α} {fault : Fault} (h : x s = .error fault t)
    (f : α → EStateM Fault σ β) : (x >>= f) s = .error fault t := by
  simp only [bind, EStateM.bind, h]

end

variable {ρ α β : Type} {s t : State ρ}

theorem bind_lift_ok (a : α) (f : α → Exec ρ β) :
    (liftExcept (.ok a : Except Fault α) >>= f) s = f a s := rfl

theorem bind_lift_error (fault : Fault) (f : α → Exec ρ β) :
    (liftExcept (.error fault : Except Fault α) >>= f) s = .error fault s := rfl

theorem advance_eq (s : State ρ) (delta : Int) :
    advance delta s = match Address.overflow? (s.pc.val + delta) with
      | some f => .error f s
      | none => .ok () { s with pc := s.pc.moved delta } := by
  rw [advance, bind_get, Address.offset_eq]
  cases Address.overflow? (s.pc.val + delta) with
  | some f => rw [bind_lift_error]
  | none =>
    rw [bind_lift_ok]
    rfl

theorem push_eq (s : State ρ) (a : Address) :
    push a s = if s.stack.depth < stackSize then .ok () { s with stack := s.stack.pushed a }
      else .error .stackOverflow s := by
  rw [push, bind_get, CallStack.push_eq]
  by_cases h : s.stack.depth < stackSize
  · rw [if_pos h, if_pos h, bind_lift_ok]
    rfl
  · rw [if_neg h, if_neg h, bind_lift_error]

theorem pop_eq (s : State ρ) :
    pop s = if s.stack.depth = 0 then .error .stackUnderflow s
      else .ok s.stack.top { s with stack := s.stack.popped } := by
  rw [pop, bind_get, CallStack.pop_eq]
  by_cases h : s.stack.depth = 0
  · rw [if_pos h, if_pos h, bind_lift_error]
  · rw [if_neg h, if_neg h, bind_lift_ok]
    rfl

theorem readBlock_eq (s : State ρ) (start length : Nat) :
    readBlock start length s = match Memory.outside? memorySize start length with
      | some f => .error f s
      | none => .ok (s.memory.block start length) s := by
  rw [readBlock, bind_get, Memory.readBlock_eq]
  cases Memory.outside? memorySize start length with
  | some f => rfl
  | none => rfl

theorem store_eq (s : State ρ) (start : Nat) (image : List Byte) :
    store start image s = match Memory.outside? memorySize start image.length with
      | some f => .error f s
      | none => .ok () { s with memory := s.memory.patch start image } := by
  rw [store, Memory.check_eq]
  cases Memory.outside? memorySize start image.length with
  | some f => rw [bind_lift_error]
  | none =>
    rw [bind_lift_ok]
    rfl

end Exec

/-! ### Test and update -/

namespace State

variable {ρ : Type}

/-- The registers with the result of an operation and the flag it sets, if it sets one. -/
def withResult (s : State ρ) (x : Register) : Byte × Option Bool → Registers
  | (result, none) => (s.setRegister x result).registers
  | (result, some flag) => ((s.setRegister x result).setFlag flag).registers

/-- The registers with the lowest key that is down, if there is one. -/
def withKey (s : State ρ) (x : Register) : Registers :=
  match s.keypad.first? with
  | none => s.registers
  | some k => (s.setRegister x (BitVec.ofNat 8 k.val)).registers

def sprite (s : State ρ) (height : Nat) : List Byte := s.memory.block s.index.val height

end State

namespace Instruction

variable {ρ : Type}

/-- The fault that an instruction meets in a state. -/
def fault? (s : State ρ) : Instruction → Option Fault
  | ret => if s.stack.depth = 0 then some .stackUnderflow else none
  | call _ => if s.stack.depth < stackSize then none else some .stackOverflow
  | skip condition => if condition.holds s then Address.overflow? (s.pc.val + 2) else none
  | draw _ _ height => Memory.outside? memorySize s.index.val height.toNat
  | awaitKey _ => if s.keypad.first?.isSome then none else Address.overflow? (s.pc.val + -2)
  | addIndex x => Address.overflow? (s.index.val + (s.register x).toNat)
  | decimal _ => Memory.outside? memorySize s.index.val (3 : Nat)
  | store x | load x => Memory.outside? memorySize s.index.val (x.val + 1 : Nat)
  | _ => none

/-- The state after an instruction that meets no fault. -/
def effect [RandomSource ρ] (set : InstructionSet) (s : State ρ) : Instruction → State ρ
  | clear => { s with screen := s.screen.clear }
  | ret => { s with pc := s.stack.top, stack := s.stack.popped }
  | jump target => { s with pc := .ofBits target }
  | call target => { s with pc := .ofBits target, stack := s.stack.pushed s.pc }
  | skip condition => { s with pc := if condition.holds s then s.pc.moved 2 else s.pc }
  | setConst x k => s.setRegister x k
  | addConst x k => s.setRegister x (s.register x + k)
  | operate op x y =>
    { s with registers := s.withResult x (op.eval set (s.register x) (s.register y)) }
  | setIndex target => { s with index := .ofBits target }
  | jumpOffset target =>
    { s with pc := (Address.ofBits target).moved (s.register .first).toNat }
  | random x mask =>
    let (v, source) := RandomSource.next s.random
    { s with random := source }.setRegister x (Byte.ofInt v &&& mask)
  | draw x y height =>
    let column := (s.register x).toNat
    let line := (s.register y).toNat
    let sprite := s.sprite height.toNat
    { s with screen := s.screen.flipSprite column line sprite }.setFlag
      (s.screen.hitsSprite column line sprite)
  | readDelay x => s.setRegister x (Byte.ofInt s.delayTimer)
  | awaitKey x =>
    { s with
      pc := if s.keypad.first?.isSome then s.pc else s.pc.moved (-2)
      registers := s.withKey x }
  | setDelay x => { s with delayTimer := (s.register x).toNat }
  | setSound x => { s with soundTimer := (s.register x).toNat }
  | addIndex x => { s with index := s.index.moved (s.register x).toNat }
  | glyph x => { s with index := Address.zero.moved (Font.glyphAddress (s.register x).toNat) }
  | decimal x =>
    { s with memory := s.memory.patch s.index.val (Byte.decimalDigits (s.register x)) }
  | store x =>
    { s with memory := s.memory.patch s.index.val (s.registers.toList.take (x.val + 1)) }
  | load x => { s with registers := (s.setRegisters (s.sprite (x.val + 1))).registers }

theorem length_decimalDigits (b : Byte) : (Byte.decimalDigits b).length = 3 := rfl

theorem length_take_registers (s : State ρ) (x : Register) :
    (s.registers.toList.take (x.val + 1)).length = x.val + 1 := by
  have hx := x.isLt
  rw [List.length_take, Vector.length_toList]
  omega

theorem overflow?_jumpOffset (target : BitVec 12) (b : Byte) :
    Address.overflow? ((Address.ofBits target).val + b.toNat) = none := by
  have ht : target.toNat < 2 ^ 12 := target.isLt
  have hb : b.toNat < 2 ^ 8 := b.isLt
  rw [Address.overflow?_eq_none_iff]
  simp only [Address.ofBits]
  omega

theorem ofInt_glyphAddress (digit : Int) :
    Address.ofInt (Font.glyphAddress digit) = .ok (Address.zero.moved (Font.glyphAddress digit)) := by
  have hlt := Font.glyphAddress_lt digit
  rw [Font.length_table] at hlt
  have hr : Address.overflow? (Address.zero.val + Font.glyphAddress digit) = none := by
    rw [Address.overflow?_eq_none_iff]
    simp only [Address.zero, fontStart] at hlt ⊢
    omega
  rw [Address.ofInt_eq_ok_iff, Address.val_moved hr]
  simp [Address.zero]

variable [RandomSource ρ]

theorem execute_eq (set : InstructionSet) (i : Instruction) (s : State ρ) :
    i.execute set s = match i.fault? s with
      | some f => .error f s
      | none => .ok () (i.effect set s) := by
  cases i with
  | clear => rfl
  | ret =>
    rw [execute, fault?]
    by_cases h : s.stack.depth = 0
    · rw [Exec.bind_of_error (by rw [Exec.pop_eq, if_pos h]), if_pos h]
    · rw [Exec.bind_of_ok (by rw [Exec.pop_eq, if_neg h]), if_neg h]
      rfl
  | jump target => rfl
  | call target =>
    rw [execute, fault?, Exec.bind_get]
    by_cases h : s.stack.depth < stackSize
    · rw [Exec.bind_of_ok (by rw [Exec.push_eq, if_pos h]), if_pos h]
      rfl
    · rw [Exec.bind_of_error (by rw [Exec.push_eq, if_neg h]), if_neg h]
  | skip condition =>
    rw [execute, fault?, effect, Exec.bind_get]
    by_cases h : condition.holds s = true
    · simp only [if_pos h, Exec.skipNext, Exec.advance_eq]
    · simp only [if_neg h]
      rfl
  | setConst x k => rfl
  | addConst x k => rfl
  | operate op x y => cases op <;> rfl
  | setIndex target => rfl
  | jumpOffset target =>
    rw [execute, Exec.bind_get, Address.offset_eq, overflow?_jumpOffset, Exec.bind_lift_ok]
    rfl
  | random x mask => rfl
  | draw x y height =>
    rw [execute, fault?, Exec.bind_get]
    cases h : Memory.outside? memorySize s.index.val height.toNat with
    | some f => rw [Exec.bind_of_error (by rw [Exec.readBlock_eq, h])]
    | none =>
      rw [Exec.bind_of_ok (by rw [Exec.readBlock_eq, h])]
      rfl
  | readDelay x => rfl
  | awaitKey x =>
    rw [execute, fault?, effect, Exec.bind_get, State.withKey]
    cases s.keypad.first? with
    | none => exact Exec.advance_eq s (-2)
    | some k => rfl
  | setDelay x => rfl
  | setSound x => rfl
  | addIndex x =>
    rw [execute, fault?, Exec.bind_get, Address.offset_eq]
    cases Address.overflow? (s.index.val + (s.register x).toNat) with
    | some f => rw [Exec.bind_lift_error]
    | none =>
      rw [Exec.bind_lift_ok]
      rfl
  | glyph x =>
    rw [execute, Exec.bind_get, ofInt_glyphAddress, Exec.bind_lift_ok]
    rfl
  | decimal x =>
    rw [execute, fault?, effect, Exec.bind_get, Exec.store_eq, length_decimalDigits]
  | store x =>
    rw [execute, fault?, effect, Exec.bind_get, Exec.store_eq, length_take_registers]
  | load x =>
    rw [execute, fault?, effect, Exec.bind_get]
    cases h : Memory.outside? memorySize s.index.val (x.val + 1 : Nat) with
    | some f => rw [Exec.bind_of_error (by rw [Exec.readBlock_eq, h])]
    | none =>
      rw [Exec.bind_of_ok (by rw [Exec.readBlock_eq, h])]
      rfl

end Instruction

/-! ### Words -/

namespace Word

variable {ρ : Type}

/-- The fault that a word meets in a state. -/
def fault? (set : InstructionSet) (s : State ρ) (w : Word) : Option Fault :=
  match Instruction.decode? w with
  | none => some (.unknownInstruction w)
  | some i => if set = .idle then none else i.fault? s

/-- The state after a word that meets no fault. -/
def effect [RandomSource ρ] (set : InstructionSet) (s : State ρ) (w : Word) : State ρ :=
  match Instruction.decode? w with
  | none => s
  | some i => if set = .idle then s else i.effect set s

theorem execute_eq [RandomSource ρ] (set : InstructionSet) (w : Word) (s : State ρ) :
    w.execute set s = match w.fault? set s with
      | some f => .error f s
      | none => .ok () (w.effect set s) := by
  unfold execute fault? effect
  cases Instruction.decode? w with
  | none => rfl
  | some i =>
    by_cases h : set = .idle
    · simp only [if_pos h]
      rfl
    · simp only [if_neg h]
      exact i.execute_eq set s

theorem execute_of_decode? [RandomSource ρ] {set : InstructionSet} (hset : set ≠ .idle) {w : Word}
    {i : Instruction} (h : Instruction.decode? w = some i) (s : State ρ) :
    w.execute set s = match i.fault? s with
      | some f => .error f s
      | none => .ok () (i.effect set s) := by
  simp only [execute, h, if_neg hset]
  exact i.execute_eq set s

end Word

end Chip8
