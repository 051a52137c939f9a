import StackRisc.Word
import StackRisc.Text.Numeral

/-!
# StackRisc.Opcode

The 23 operation codes, numbered from 0 in the order of their encoding.
Only `BGE` and `LDI` are followed by a four-byte operand.
-/

namespace StackRisc

inductive Opcode where
  | bge | ldi | cmp | add | push | pop | ldr | str | clc | sec | ret | hlt
  | grt | sub | mul | div | sys | flp | les | cpop | lshft | rshft | iret
  deriving DecidableEq, Repr, Inhabited

namespace Opcode

/-- All operation codes, each at the index of its encoding. -/
def all : List Opcode :=
  [bge, ldi, cmp, add, push, pop, ldr, str, clc, sec, ret, hlt,
   grt, sub, mul, div, sys, flp, les, cpop, lshft, rshft, iret]

/-! ## Encoding -/

def byte : Opcode → Byte
  | bge => 0 | ldi => 1 | cmp => 2 | add => 3 | push => 4 | pop => 5
  | ldr => 6 | str => 7 | clc => 8 | sec => 9 | ret => 10 | hlt => 11
  | grt => 12 | sub => 13 | mul => 14 | div => 15 | sys => 16 | flp => 17
  | les => 18 | cpop => 19 | lshft => 20 | rshft => 21 | iret => 22

/-- The operation code of a byte; bytes above 22 have none. -/
def ofByte? (b : Byte) : Option Opcode := all[b.toNat]?

/-- Whether a four-byte operand follows. -/
def hasOperand : Opcode → Bool
  | bge | ldi => true
  | _ => false

def size (op : Opcode) : Nat := if op.hasOperand then 5 else 1

/-- Every operation code is found at its byte. -/
theorem ofByte?_byte (op : Opcode) : ofByte? op.byte = some op := by
  cases op <;> rfl

/-- An operation code is found at its own byte only. -/
theorem byte_of_ofByte? {b : Byte} {op : Opcode} (h : ofByte? b = some op) : op.byte = b := by
  have hlt : b.toNat < 23 := by
    simp only [ofByte?] at h
    exact (List.getElem?_eq_some_iff.mp h).1
  have hb : b = UInt8.ofNat b.toNat := by simp
  generalize b.toNat = n at *
  subst hb
  revert h
  revert hlt
  revert n
  cases op <;> decide

/-! ## Mnemonics -/

/-- The name of an operation code in a source text. -/
def mnemonic : Opcode → String
  | bge => "BGE" | ldi => "LDI" | cmp => "CMP" | add => "ADD" | push => "PUSH" | pop => "POP"
  | ldr => "LDR" | str => "STR" | clc => "CLC" | sec => "SEC" | ret => "RET" | hlt => "HLT"
  | grt => "GRT" | sub => "SUB" | mul => "MUL" | div => "DIV" | sys => "SYS" | flp => "FLP"
  | les => "LES" | cpop => "CPOP" | lshft => "LSHFT" | rshft => "RSHFT" | iret => "IRET"

/-- The operation code with exactly this name. -/
def ofExactName? (name : String) : Option Opcode := all.find? (·.mnemonic == name)

/-- The operation code with this name, in any ASCII case. -/
def ofName? (name : String) : Option Opcode := ofExactName? name.toUpper

/-- Every operation code is found by its name. -/
theorem ofExactName?_mnemonic (op : Opcode) : ofExactName? op.mnemonic = some op := by
  cases op <;> decide

/-- What is said of a byte that is no operation code. -/
def invalidMessage (b : Byte) : String := "invalid opcode " ++ Text.hexCode b

end Opcode

end StackRisc
