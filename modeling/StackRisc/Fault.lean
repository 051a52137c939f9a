import StackRisc.FileSystem
import StackRisc.Instruction
import StackRisc.Memory.Region

/-!
# StackRisc.Fault

What ends an execution.  The processor raises an exception, a host file
cannot be read, or the cycle limit is reached.
-/

namespace StackRisc

/-- A fault of the processor. -/
inductive Exception where
  | divisionByZero
  | invalidInstruction (code : Byte) (address : Address)
  | unimplemented (op : Opcode)
  | unknownSyscall (index : Word)
  | memory (fault : MemoryFault)
  deriving DecidableEq, Repr, Inhabited

namespace Exception

/-- The number of an exception in diagnostics. -/
def code : Exception → Nat
  | divisionByZero => 1
  | invalidInstruction .. => 2
  | unimplemented _ => 3
  | unknownSyscall _ => 4
  | memory _ => 5

def message : Exception → String
  | divisionByZero => "division by zero"
  | invalidInstruction code address =>
    "invalid instruction " ++ Text.hexCode code ++ " at address " ++ Text.hexShort address.toNat
  | unimplemented op => "unimplemented instruction " ++ op.mnemonic
  | unknownSyscall index => "unknown syscall " ++ toString index.toInt
  | memory fault => "invalid memory access (" ++ fault.message ++ ")"

/-- The message of an exception and of what caused it. -/
def fullMessage (cause : Exception) : String :=
  match cause with
  | memory fault => cause.message ++ ": " ++ fault.message
  | _ => cause.message

end Exception

/-- What ends an execution. -/
inductive Fault where
  | exception (cause : Exception)
  | file (path : String) (cause : FileError)
  | cycleLimit (limit : Nat)
  deriving DecidableEq, Repr, Inhabited

namespace Fault

def message : Fault → String
  | exception cause => "CPU exception: " ++ cause.message
  | file path _ => "could not read host file " ++ path
  | cycleLimit limit => "cycle limit of " ++ toString limit ++ " reached"

/-- The message of a fault and of what caused it. -/
def fullMessage : Fault → String
  | exception cause => (exception cause).message ++ ": " ++ cause.fullMessage
  | file path cause => (file path cause).message ++ ": " ++ cause.message
  | cycleLimit limit => (cycleLimit limit).message

end Fault

end StackRisc
