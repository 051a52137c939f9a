import StackRisc.Stack
import StackRisc.Text.Numeral

/-!
# StackRisc.Cpu

The processor state that memory can show: two accumulators, the carry, the
program counter, both stacks and the operand width.  The width selects the
accumulator and the size of what is pushed and popped.
-/

namespace StackRisc

/-! ## Width -/

/-- Operand width: 8-bit with the narrow accumulator, or 32-bit with the
wide one. -/
inductive Width where
  | byte | word
  deriving DecidableEq, Repr, Inhabited

namespace Width

def toggle : Width → Width
  | byte => word
  | word => byte

def bits : Width → Nat
  | byte => 8
  | word => 32

def bytes : Width → Nat
  | byte => 1
  | word => 4

def name : Width → String
  | byte => "byte"
  | word => "word"

end Width

/-! ## Registers -/

/-- Address of the first program byte when every region has its default size. -/
def defaultOrigin : Address := 0x03fffffc

/-- The registers.  The carry is a byte: programs can store any value in it
through the system page. -/
structure Registers where
  narrow : Byte := 0
  wide : Word := 0
  carry : Byte := 0
  pc : Address := defaultOrigin
  deriving DecidableEq, Repr, Inhabited

namespace Registers

/-- The accumulator of a width, as a word. -/
def get (r : Registers) : Width → Word
  | .byte => Word.ofByte r.narrow
  | .word => r.wide

/-- Set the accumulator of a width; the narrow one keeps the low byte. -/
def set (r : Registers) : Width → Word → Registers
  | .byte, v => { r with narrow := v.lowByte }
  | .word, v => { r with wide := v }

/-- Set the carry to one or zero. -/
def setCarry (r : Registers) (on : Bool) : Registers := { r with carry := if on then 1 else 0 }

def text (r : Registers) : String :=
  "r = " ++ toString r.narrow ++ " | lr = " ++ toString r.wide.toInt
    ++ " | carry = " ++ toString r.carry ++ " | pc = " ++ Text.hexAddress r.pc

end Registers

/-! ## Processor -/

/-- The state of the processor. -/
structure Cpu where
  registers : Registers := {}
  stack : OperandStack := {}
  calls : CallStack := {}
  width : Width := .byte
  deriving DecidableEq, Repr, Inhabited

namespace Cpu

/-- Pop an operand of a width; a byte is zero-extended. -/
def pop (cpu : Cpu) : Width → Logged (Word × Cpu)
  | .byte => do
    let (b, stack) ← cpu.stack.popByte
    pure (Word.ofByte b, { cpu with stack })
  | .word => do
    let (w, stack) ← cpu.stack.popWord
    pure (w, { cpu with stack })

/-- Push an operand of a width; of a byte operand the low byte is kept. -/
def push (cpu : Cpu) : Width → Word → Cpu
  | .byte, v => { cpu with stack := cpu.stack.pushByte v.lowByte }
  | .word, v => { cpu with stack := cpu.stack.pushWord v }

def accumulator (cpu : Cpu) : Word := cpu.registers.get cpu.width

def setAccumulator (cpu : Cpu) (v : Word) : Cpu :=
  { cpu with registers := cpu.registers.set cpu.width v }

def setCarry (cpu : Cpu) (on : Bool) : Cpu :=
  { cpu with registers := cpu.registers.setCarry on }

def jump (cpu : Cpu) (a : Address) : Cpu :=
  { cpu with registers := { cpu.registers with pc := a } }

end Cpu

end StackRisc
