import StackRisc.Computer.Step
import StackRisc.Proofs.Arithmetic
import StackRisc.Proofs.Computer.Action

/-!
# StackRisc.Proofs.Computer.Arithmetic

The arithmetic instructions on a machine: they take the operand on top,
combine it with the accumulator and the carry, and change nothing else.

* `Arithmetic.Operation.ends_execute`, `Arithmetic.Comparison.ends_execute` —
  how they end;
* `Computer.execute_arithmetic` — that they compute what is meant.
-/

namespace StackRisc

open StackRisc.Action Arithmetic Arithmetic.Operation

/-! ## Operands of bytes -/

namespace Cpu

/-- In byte width the operand on top is a byte without sign, zero if there is
none. -/
theorem top_of_byte {cpu : Cpu} (h : cpu.width = .byte) :
    cpu.top = Word.ofByte (cpu.stack.bytes.headD 0) := by
  obtain ⟨registers, ⟨bytes⟩, calls, width⟩ := cpu
  obtain rfl : width = .byte := h
  cases bytes <;> rfl

/-- In byte mode, the accumulator is the narrow register. -/
theorem accumulator_of_byte {cpu : Cpu} (h : cpu.width = .byte) :
    cpu.accumulator = Word.ofByte cpu.registers.narrow := by
  rw [accumulator, h]
  rfl

theorem width_dropTop (cpu : Cpu) : cpu.dropTop.width = cpu.width := by
  rw [dropTop_eq]

theorem registers_dropTop (cpu : Cpu) : cpu.dropTop.registers = cpu.registers := by
  rw [dropTop_eq]

/-- An accumulator that is wide enough keeps what is put into it. -/
theorem accumulator_setAccumulator {cpu : Cpu} {r : Word}
    (h : cpu.width = .byte → 0 ≤ r.toInt ∧ r.toInt ≤ 255) :
    (cpu.setAccumulator r).accumulator = r := by
  cases hwidth : cpu.width with
  | byte =>
      simp only [setAccumulator, accumulator, hwidth]
      exact Word.ofByte_lowByte (h hwidth)
  | word =>
      simp only [setAccumulator, accumulator, hwidth]
      rfl

end Cpu

/-! ## Instructions -/

/-- The instruction of an operation. -/
def Arithmetic.Operation.instruction : Operation → Instruction
  | .add => .add | .sub => .sub | .mul => .mul | .div => .div
  | .shiftLeft => .lshft | .shiftRight => .rshft

/-- A comparison of the accumulator with the popped value. -/
inductive Arithmetic.Comparison where
  | equal | greater | less
  deriving DecidableEq, Repr

namespace Arithmetic.Comparison

/-- The instruction of a comparison. -/
def instruction : Comparison → Instruction
  | equal => .cmp | greater => .grt | less => .les

/-- Whether the accumulator `b` compares so with the popped value `a`. -/
def holds : Comparison → (a b : Int) → Bool
  | equal, a, b => b == a
  | greater, a, b => decide (b > a)
  | less, a, b => decide (b < a)

end Arithmetic.Comparison

variable {c : Computer}

/-- An operation takes the operand on top and changes the accumulator. -/
theorem Arithmetic.Operation.ends_execute {op : Operation}
    (h : op = .div → c.cpu.accumulator ≠ 0) :
    op.instruction.execute.Ends c (.ok .next)
      { c.dropTop with
        cpu := c.cpu.dropTop.setAccumulator
          (op.compute c.cpu.width c.cpu.top c.cpu.accumulator c.cpu.registers.carry) } := by
  cases op with
  | div => simp [instruction, Instruction.execute, divide, compute, h rfl]
  | _ => simp [instruction, Instruction.execute, combine, compute]

/-- Words are compared as numbers. -/
theorem Word.beq_eq_toInt (a b : Word) : (a == b) = (b.toInt == a.toInt) := by
  rw [Bool.eq_iff_iff, beq_iff_eq, beq_iff_eq, Int32.toInt_inj, eq_comm]

/-- A comparison takes the operand on top and changes the carry. -/
theorem Arithmetic.Comparison.ends_execute (test : Comparison) :
    test.instruction.execute.Ends c (.ok .next)
      { c.dropTop with
        cpu := c.cpu.dropTop.setCarry (test.holds c.cpu.top.toInt c.cpu.accumulator.toInt) } := by
  cases test with
  | equal => simp [instruction, Instruction.execute, compare, holds, Word.beq_eq_toInt]
  | greater | less =>
      simp [instruction, Instruction.execute, compare, holds, Int32.lt_iff_toInt_lt]

/-- Nothing is divided by zero. -/
theorem Action.ends_divide_zero (h : c.cpu.accumulator = 0) :
    divide.Ends c (.error (.exception .divisionByZero)) c.dropTop := by
  simp [divide, h]

/-- The arithmetic instructions compute what is meant, on every machine, and
change nothing but the operand on top and the accumulator or the carry.  In
byte width the operands are bytes without sign, no 32-bit operation on the way
leaves the range of a word, and the result is a byte, so the accumulator keeps
all of it. -/
theorem Computer.execute_arithmetic (c : Computer) :
    (∀ op : Operation, (op = .div → c.cpu.accumulator ≠ 0) → ∃ r : Word,
      op.instruction.execute.Ends c (.ok .next)
        { c.dropTop with cpu := c.cpu.dropTop.setAccumulator r } ∧
      r.toInt = op.reference c.cpu.width c.cpu.top.toInt c.cpu.accumulator.toInt
        c.cpu.registers.carry.toNat ∧
      (c.cpu.dropTop.setAccumulator r).accumulator = r ∧
      (c.cpu.width = .byte → 0 ≤ r.toInt ∧ r.toInt ≤ 255 ∧
        op.computeChecked c.cpu.top c.cpu.accumulator c.cpu.registers.carry = some r)) ∧
    (c.cpu.accumulator = 0 →
      Instruction.div.execute.Ends c (.error (.exception .divisionByZero)) c.dropTop) ∧
    (∀ test : Comparison,
      test.instruction.execute.Ends c (.ok .next)
        { c.dropTop with
          cpu := { c.cpu.dropTop with
            registers := { c.cpu.registers with
              carry := if test.holds c.cpu.top.toInt c.cpu.accumulator.toInt then 1 else 0 } } }) ∧
    (c.cpu.width = .byte →
      c.cpu.top.toInt = (c.cpu.stack.bytes.headD 0).toNat ∧
        c.cpu.accumulator.toInt = c.cpu.registers.narrow.toNat) := by
  refine ⟨fun op hdiv => ⟨_, op.ends_execute hdiv, ?_⟩, Action.ends_divide_zero, fun test => ?_,
    fun h => ?_⟩
  · cases hwidth : c.cpu.width with
    | byte =>
        rw [Cpu.top_of_byte hwidth, Cpu.accumulator_of_byte hwidth, Word.toInt_ofByte,
          Word.toInt_ofByte]
        generalize c.cpu.stack.bytes.headD 0 = a, c.cpu.registers.narrow = b,
          c.cpu.registers.carry = carry
        have hvalue := @toInt_compute_byte op a b carry
        have hbounds := @onBytes_bounds op a b carry
        rw [← hvalue] at hbounds
        exact ⟨hvalue, Cpu.accumulator_setAccumulator fun _ => hbounds,
          fun _ => ⟨hbounds.1, hbounds.2, computeChecked_eq a b carry⟩⟩
    | word =>
        refine ⟨toInt_compute_word _ _ _, Cpu.accumulator_setAccumulator fun h => ?_,
          fun h => nomatch h⟩
        rw [Cpu.width_dropTop, hwidth] at h
        contradiction
  · have hends := @Comparison.ends_execute c test
    rwa [Cpu.setCarry, Registers.setCarry, Cpu.registers_dropTop] at hends
  · rw [Cpu.top_of_byte h, Cpu.accumulator_of_byte h, Word.toInt_ofByte, Word.toInt_ofByte]
    exact ⟨rfl, rfl⟩

/-- A machine that is about to divide the least word by minus one. -/
def Computer.dividingLeast : Computer where
  cpu := { registers := { wide := -1 }, stack := ⟨[0x80, 0, 0, 0]⟩, width := .word }
  memory := ⟨[]⟩
  files := ⟨fun _ => .ok []⟩

/-- The quotient is no word, and wraps to the least one. -/
theorem Computer.execute_arithmetic_least :
    dividingLeast.cpu.top.toInt = -2147483648 ∧ dividingLeast.cpu.accumulator ≠ 0 ∧
      ∃ r : Word, r.toInt = -2147483648 ∧
        Instruction.div.execute.Ends dividingLeast (.ok .next)
          { dividingLeast.dropTop with cpu := dividingLeast.cpu.dropTop.setAccumulator r } := by
  have hne : dividingLeast.cpu.accumulator ≠ 0 := by decide
  obtain ⟨r, hends, hvalue, -⟩ := (execute_arithmetic dividingLeast).1 .div fun _ => hne
  exact ⟨by decide, hne, r, hvalue.trans (by decide), hends⟩

end StackRisc
