import StackRisc.Opcode

/-!
# StackRisc.Instruction

Instructions with their operand, their encoding and their text.  `BGE`
carries an offset in the program and is written in hexadecimal; `LDI`
carries a word and is written in decimal.
-/

namespace StackRisc

/-- An instruction.

* `bge` branches to a program offset, saving the return address, if the carry is set;
* `ldi` loads a word into the accumulator;
* `cmp`, `grt` and `les` set the carry by comparing the accumulator with the popped value;
* `add`, `sub`, `mul`, `div`, `lshft` and `rshft` combine the popped value with the accumulator;
* `push` and `pop` move the accumulator to and from the operand stack;
* `ldr` and `str` move it from and to memory;
* `clc`, `sec` and `flp` clear, set and flip the carry;
* `ret` returns if the carry is set, `cpop` forgets the last return address;
* `hlt` stops, `sys` asks the host for a service, `iret` is reserved. -/
inductive Instruction where
  | bge (target : Address)
  | ldi (value : Word)
  | cmp | add | push | pop | ldr | str | clc | sec | ret | hlt
  | grt | sub | mul | div | sys | flp | les | cpop | lshft | rshft | iret
  deriving DecidableEq, Repr, Inhabited

namespace Instruction

def opcode : Instruction → Opcode
  | bge _ => .bge | ldi _ => .ldi | cmp => .cmp | add => .add | push => .push | pop => .pop
  | ldr => .ldr | str => .str | clc => .clc | sec => .sec | ret => .ret | hlt => .hlt
  | grt => .grt | sub => .sub | mul => .mul | div => .div | sys => .sys | flp => .flp
  | les => .les | cpop => .cpop | lshft => .lshft | rshft => .rshft | iret => .iret

/-- The instruction with an operation code and an operand, which is ignored
where the operation code takes none. -/
def ofOpcode : Opcode → Word → Instruction
  | .bge, operand => bge operand.toAddress
  | .ldi, operand => ldi operand
  | .cmp, _ => cmp | .add, _ => add | .push, _ => push | .pop, _ => pop
  | .ldr, _ => ldr | .str, _ => str | .clc, _ => clc | .sec, _ => sec
  | .ret, _ => ret | .hlt, _ => hlt | .grt, _ => grt | .sub, _ => sub
  | .mul, _ => mul | .div, _ => div | .sys, _ => sys | .flp, _ => flp
  | .les, _ => les | .cpop, _ => cpop | .lshft, _ => lshft | .rshft, _ => rshft
  | .iret, _ => iret

@[simp] theorem opcode_ofOpcode (op : Opcode) (operand : Word) :
    (ofOpcode op operand).opcode = op := by
  cases op <;> rfl

def size (i : Instruction) : Nat := i.opcode.size

/-- The bytes of an instruction: its operation code, then its operand. -/
def encode : Instruction → List Byte
  | bge target => Opcode.bge.byte :: (Word.ofAddress target).bytes
  | ldi value => Opcode.ldi.byte :: value.bytes
  | i => [i.opcode.byte]

/-- The size of an instruction is the number of bytes it takes. -/
@[simp] theorem length_encode (i : Instruction) : i.encode.length = i.size := by
  cases i <;> rfl

/-- The text of an instruction: the mnemonic in five columns and the
operand, or the mnemonic alone. -/
def text : Instruction → String
  | bge target => Text.padRight 5 Opcode.bge.mnemonic ++ " $" ++ Text.hexUpper target.toNat
  | ldi value => Text.padRight 5 Opcode.ldi.mnemonic ++ " #" ++ toString value.toInt
  | i => i.opcode.mnemonic

end Instruction

end StackRisc
