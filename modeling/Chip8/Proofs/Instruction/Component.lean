import Chip8.Proofs.Instruction.Effect

/-!
# Effects by component

What an instruction does to each component of the state: one equation for each, with a line for
the instructions that alter it. Statements about one component cite its equation and never open
an effect.
-/

namespace Chip8

/-! ### Registers -/

namespace State

variable {ρ : Type} (s : State ρ)

theorem register_setRegister (x r : Register) (b : Byte) :
    (s.setRegister x b).register r = if x = r then b else s.register r := by
  simp only [setRegister, register, Fin.getElem_fin, Vector.getElem_set, Fin.ext_iff]

theorem register_setFlag (r : Register) (flag : Bool) :
    (s.setFlag flag).register r =
      if Register.flag = r then (if flag then 1 else 0) else s.register r :=
  s.register_setRegister .flag r _

theorem register_setRegisters (bytes : List Byte) (r : Register) :
    (s.setRegisters bytes).register r = bytes[r.val]?.getD (s.register r) := by
  simp [setRegisters, register]

end State

/-! ### Decimal digits -/

theorem Byte.decimalDigits_eq (b : Byte) : Byte.decimalDigits b =
    [b.toNat / 100, b.toNat / 10 % 10, b.toNat % 10].map (BitVec.ofNat 8) := by
  have hb := b.isLt
  have hhundreds : b / 100 = BitVec.ofNat 8 (b.toNat / 100) := by
    apply BitVec.eq_of_toNat_eq
    simp
    omega
  have htens : b / 10 % 10 = BitVec.ofNat 8 (b.toNat / 10 % 10) := by
    apply BitVec.eq_of_toNat_eq
    simp
    omega
  have hones : b % 10 = BitVec.ofNat 8 (b.toNat % 10) := by
    apply BitVec.eq_of_toNat_eq
    simp
    omega
  rw [Byte.decimalDigits, hhundreds, htens, hones]
  rfl

/-! ### Components -/

-- unfolded, the sixteen registers would be compared one by one in every equation
attribute [local irreducible] State.setRegisters

namespace Instruction

variable {ρ : Type} [RandomSource ρ] (set : InstructionSet) (i : Instruction) (s : State ρ)

theorem memory_effect :
    (i.effect set s).memory = match i with
      | decimal x => s.memory.patch s.index.val (Byte.decimalDigits (s.register x))
      | store x => s.memory.patch s.index.val (s.registers.toList.take (x.val + 1))
      | _ => s.memory := by
  cases i <;> rfl

theorem pc_effect :
    (i.effect set s).pc = match i with
      | ret => s.stack.top
      | jump target | call target => .ofBits target
      | skip condition => if condition.holds s then s.pc.moved 2 else s.pc
      | jumpOffset target => (Address.ofBits target).moved (s.register .first).toNat
      | awaitKey _ => if s.keypad.first?.isSome then s.pc else s.pc.moved (-2)
      | _ => s.pc := by
  cases i <;> rfl

theorem index_effect :
    (i.effect set s).index = match i with
      | setIndex target => .ofBits target
      | addIndex x => s.index.moved (s.register x).toNat
      | glyph x => Address.zero.moved (Font.glyphAddress (s.register x).toNat)
      | _ => s.index := by
  cases i <;> rfl

theorem stack_effect :
    (i.effect set s).stack = match i with
      | ret => s.stack.popped
      | call _ => s.stack.pushed s.pc
      | _ => s.stack := by
  cases i <;> rfl

theorem delayTimer_effect :
    (i.effect set s).delayTimer = match i with
      | setDelay x => ((s.register x).toNat : Int)
      | _ => s.delayTimer := by
  cases i <;> rfl

theorem soundTimer_effect :
    (i.effect set s).soundTimer = match i with
      | setSound x => ((s.register x).toNat : Int)
      | _ => s.soundTimer := by
  cases i <;> rfl

theorem registers_effect :
    (i.effect set s).registers = match i with
      | setConst x k => (s.setRegister x k).registers
      | addConst x k => (s.setRegister x (s.register x + k)).registers
      | operate op x y => s.withResult x (op.eval set (s.register x) (s.register y))
      | random x mask =>
        (s.setRegister x (Byte.ofInt (RandomSource.next s.random).1 &&& mask)).registers
      | draw x y height =>
        (s.setFlag (s.screen.hitsSprite (s.register x).toNat (s.register y).toNat
          (s.sprite height.toNat))).registers
      | readDelay x => (s.setRegister x (Byte.ofInt s.delayTimer)).registers
      | awaitKey x => s.withKey x
      | load x => (s.setRegisters (s.sprite (x.val + 1))).registers
      | _ => s.registers := by
  cases i <;> rfl

theorem keypad_effect : (i.effect set s).keypad = s.keypad := by
  cases i <;> rfl

theorem screen_effect :
    (i.effect set s).screen = match i with
      | clear => s.screen.clear
      | draw x y height => s.screen.flipSprite (s.register x).toNat (s.register y).toNat
        (s.sprite height.toNat)
      | _ => s.screen := by
  cases i <;> rfl

theorem random_effect :
    (i.effect set s).random = match i with
      | random _ _ => (RandomSource.next s.random).2
      | _ => s.random := by
  cases i <;> rfl

end Instruction

end Chip8
