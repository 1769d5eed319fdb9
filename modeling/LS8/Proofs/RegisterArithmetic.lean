import LS8.Proofs.InstructionSet.Refinement

/-!
# Arithmetic on registers

What an operation does to the register file and the flags, as an operation on natural
numbers.  Both operands are read before anything is written, so it makes no difference
whether the two registers are one, or one of them is the stack pointer.  Only the first
register is ever written, only comparisons touch the flags, and a division by zero
changes nothing.
-/

namespace LS8

namespace AluOp

/-- The number that an operation leaves in its first register, given the numbers in
both registers before. -/
def number (op : AluOp) (x y : Nat) : Nat :=
  match op with
  | .add => (x + y) % 256
  | .sub => (x + 256 - y) % 256
  | .mul => x * y % 256
  | .div => x / y
  | .mod => x % y
  | .cmp => x
  | .and => x &&& y
  | .or => x ||| y
  | .xor => x ^^^ y
  | .not => 255 - x
  | .shl => x * 2 ^ y % 256
  | .shr => x / 2 ^ y

/-- The numbers are those of the instruction set. -/
theorem compute_number
    {op : AluOp}
    {x y : Nat}
    (noComparison : op ≠ .cmp)
    (defined : ¬((op = .div ∨ op = .mod) ∧ y = 0)) :
    InstructionSet.compute (Opcode.alu op).byte.toNat x y =
      some (.value (op.number x y)) := by
  cases op with
  | cmp => contradiction
  | div =>
      have nonzero : y ≠ 0 := fun zero => defined ⟨.inl rfl, zero⟩
      exact congrArg some (if_neg nonzero)
  | mod =>
      have nonzero : y ≠ 0 := fun zero => defined ⟨.inr rfl, zero⟩
      exact congrArg some (if_neg nonzero)
  | _ => rfl

/-- An operation other than a comparison computes a value, unless it divides by
zero. -/
theorem compute_eq_value
    {op : AluOp}
    {left right : UInt8}
    (noComparison : op ≠ .cmp)
    (defined : ¬((op = .div ∨ op = .mod) ∧ right.toNat = 0)) :
    ∃ byte,
      op.compute left right = .value byte ∧
        byte.toNat = op.number left.toNat right.toNat := by
  have described := InstructionSet.compute_byte op left right
  rw [compute_number noComparison defined, Option.some.injEq] at described
  cases computed : op.compute left right with
  | value byte =>
      rw [computed] at described
      injection described with number_eq
      exact ⟨byte, rfl, number_eq.symm⟩
  | comparison outcome =>
      rw [computed] at described
      contradiction
  | zeroDivisor =>
      rw [computed] at described
      contradiction

variable
  {op : AluOp}
  {registers : Registers}
  {flags : Flags}
  {first second : Register}

theorem apply_eq_error_iff :
    op.apply registers flags first second = .error .divideByZero ↔
      (op = .div ∨ op = .mod) ∧ (registers.get second).toNat = 0 := by
  have zero_iff : (registers.get second).toNat = 0 ↔ registers.get second = 0 :=
    UInt8.toNat_inj (b := 0)
  rw [zero_iff,
    ← @compute_eq_zeroDivisor_iff op (registers.get first) (registers.get second),
    apply]
  split
  case h_1 byte computed => simp [computed]
  case h_2 outcome computed => simp [computed]
  case h_3 computed => simp [computed]

theorem apply_cmp :
    apply .cmp registers flags first second =
      .ok (registers, .compare (registers.get first) (registers.get second)) := rfl

/-- A value goes into the first register, and the flags stay. -/
theorem apply_of_value
    {byte : UInt8}
    (computed :
      op.compute (registers.get first) (registers.get second) = .value byte) :
    op.apply registers flags first second =
      .ok (registers.set first byte, flags) := by
  rw [apply, computed]

/-- A machine that divides by zero keeps its registers and its flags. -/
theorem calculate_of_error
    {machine : Machine}
    (failed :
      op.apply machine.registers machine.flags first second =
        .error .divideByZero)
    (instruction : Instruction) :
    (machine.calculate instruction op first second).machine =
      { machine with status := .halted } := by
  rw [Machine.calculate, failed]

/-- An operation on two registers, which may be one, as an operation on numbers: only the
first register changes, or for a comparison only the flags. -/
theorem apply_on_numbers
    (op : AluOp)
    (registers : Registers)
    (flags : Flags)
    (a b : UInt8) :
    let first := Register.ofOperand a
    let second := Register.ofOperand b
    let x := (registers.get first).toNat
    let y := (registers.get second).toNat
    (first.val = a.toNat % 8 ∧ second.val = b.toNat % 8) ∧
      (op.apply registers flags first second = .error .divideByZero ↔
        (op = .div ∨ op = .mod) ∧ y = 0) ∧
      (((op = .div ∨ op = .mod) ∧ y = 0) →
        ∀ (machine : Machine) (instruction : Instruction),
          machine.registers = registers →
            machine.flags = flags →
              (machine.calculate instruction op first second).machine =
                { machine with status := .halted }) ∧
      (¬((op = .div ∨ op = .mod) ∧ y = 0) →
        ∃ after afterFlags,
          op.apply registers flags first second = .ok (after, afterFlags) ∧
            (op = .cmp →
              after = registers ∧
                afterFlags.bits.toNat =
                  if x = y then 1 else if y < x then 2 else 4) ∧
            (op ≠ .cmp →
              afterFlags = flags ∧ (after.get first).toNat = op.number x y) ∧
            ∀ register ≠ first, after.get register = registers.get register) := by
  intro first second x y
  refine ⟨⟨rfl, rfl⟩, apply_eq_error_iff, ?_, ?_⟩
  · rintro fails machine instruction rfl rfl
    exact calculate_of_error (apply_eq_error_iff.mpr fails) instruction
  · intro defined
    rcases Decidable.em (op = .cmp) with rfl | noComparison
    · refine ⟨registers, _, apply_cmp, ?_, ?_, ?_⟩
      · intro _
        exact ⟨rfl, Flags.toNat_bits_compare _ _⟩
      · intro other
        contradiction
      · intro _ _
        rfl
    · obtain ⟨byte, computed, number_eq⟩ := compute_eq_value noComparison defined
      refine ⟨registers.set first byte, flags, apply_of_value computed, ?_, ?_, ?_⟩
      · intro comparison
        contradiction
      · intro _
        rw [Registers.get_set_self]
        exact ⟨rfl, number_eq⟩
      · intro register different
        exact Registers.get_set_of_ne _ _ different

/-- Doubling the stack pointer, comparing it with an empty register, and dividing it by
that register. -/
theorem apply_on_numbers_stackPointer :
    (∃ after,
        apply .add .initial .clear (.ofOperand 0x0F) (.ofOperand 0xFF) =
            .ok (after, .clear) ∧
          (after.get 7).toNat = (0xF4 + 0xF4) % 256) ∧
      (∃ flags,
        apply .cmp .initial .clear (.ofOperand 0x07) (.ofOperand 0x08) =
            .ok (.initial, flags) ∧
          flags.bits.toNat = 2) ∧
      apply .mod .initial .clear (.ofOperand 0x07) (.ofOperand 0x08) =
        .error .divideByZero := by
  obtain ⟨_, _, _, adds⟩ := apply_on_numbers .add .initial .clear 0x0F 0xFF
  obtain ⟨_, _, _, compares⟩ := apply_on_numbers .cmp .initial .clear 0x07 0x08
  obtain ⟨_, fails, _⟩ := apply_on_numbers .mod .initial .clear 0x07 0x08
  refine ⟨?_, ?_, fails.mpr (by decide)⟩
  · obtain ⟨after, afterFlags, applied, _, summed, _⟩ := adds (by decide)
    obtain ⟨rfl, number_eq⟩ := summed (by decide)
    exact ⟨after, applied, number_eq⟩
  · obtain ⟨after, afterFlags, applied, compared, _⟩ := compares (by decide)
    obtain ⟨rfl, bits_eq⟩ := compared rfl
    exact ⟨afterFlags, applied, bits_eq⟩

end AluOp
end LS8
