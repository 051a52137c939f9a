import StackRisc.Computer.Step
import StackRisc.Symbols

/-!
# StackRisc.Debugger.View

What the debugger shows of a machine: registers, stacks, bytes of memory and
instructions.  Looking at memory can itself report soft faults; they come in
front of the row that they belong to.
-/

namespace StackRisc.Debugger

/-! ## Processor -/

/-- The registers and the width. -/
def registerRows (c : Computer) : List Event :=
  [.info ("Registers: " ++ c.cpu.registers.text),
   .info ("Width: " ++ toString c.cpu.width.bits ++ "-bit")]

def byteTexts (bytes : List Byte) : String := " ".intercalate (bytes.map Text.hexByte)

def operandRow (s : OperandStack) : Event :=
  if s.isEmpty then .info "Operand stack: empty"
  else
    .info ("Operand stack (" ++ toString s.size ++ " bytes, top first): " ++ byteTexts s.bytes)

def callRows (s : CallStack) : List Event :=
  if s.frames.isEmpty then [.info "Call stack: empty"]
  else
    .info ("Call stack (" ++ toString s.depth ++ " frames, innermost first):")
      :: s.frames.map fun a => .info ("  " ++ Text.hexAddress a)

def stackRows (c : Computer) : List Event := operandRow c.cpu.stack :: callRows c.cpu.calls

/-! ## Memory -/

def note (e : Event) : Logged Unit := .noting e ()

def readBytes (c : Computer) : (count : Nat) → (start : Address) → Logged (List Byte)
  | 0, _ => .quiet []
  | count + 1, start => do
    let b ← c.memory.read8 c.cpu start
    let rest ← readBytes c count (start + 1)
    pure (b :: rest)

/-- Number of bytes in a row. -/
def rowSize : Nat := 8

/-- A row of bytes behind the address of the first one. -/
def memoryRow (start : Address) (bytes : List Byte) : Event :=
  .info (Text.hexAddress start ++ "  " ++ byteTexts bytes)

/-- The rows of some bytes from an address on. -/
def memoryRows (c : Computer) (count : Nat) (start : Address) : Logged Unit :=
  if count = 0 then .quiet ()
  else do
    let bytes ← readBytes c (min rowSize count) start
    note (memoryRow start bytes)
    memoryRows c (count - rowSize) (start + UInt32.ofNat rowSize)
termination_by count
decreasing_by simp only [rowSize]; omega

/-! ## Instructions -/

/-- What to know to show instructions. -/
structure Listed where
  computer : Computer
  symbols : Symbols
  /-- Where the program starts. -/
  origin : Address
  breakpoints : List Address

namespace Listed

/-- The labels at an address, each on a row of its own. -/
def labelRows (v : Listed) (address : Address) : List Event :=
  if v.origin ≤ address then
    (v.symbols.labelsAt (address - v.origin)).map fun name =>
      .info ("            " ++ name ++ ":")
  else []

/-- The marks of a breakpoint and of the program counter. -/
def gutter (v : Listed) (address : Address) : String :=
  (if v.breakpoints.contains address then "B" else " ")
    ++ (if v.computer.cpu.registers.pc = address then ">" else " ")

/-- A row for an instruction, or for a byte that is none. -/
def row (v : Listed) (address : Address) (content : Option Instruction) : Event :=
  let text := match content with
    | some i => i.text
    | none => "–"
  .info (v.gutter address ++ " " ++ Text.hexAddress address ++ "    " ++ text)

/-- Show the instruction at an address.  The address behind it is returned. -/
def instruction (v : Listed) (address : Address) : Logged Address :=
  let found := v.computer.instructionAt address
  let content := found.value.toOption
  let size := match content with
    | some i => i.size
    | none => 1
  ⟨address + UInt32.ofNat size, v.labelRows address ++ found.log ++ [v.row address content]⟩

/-- Show some instructions from an address on.  The address behind them is
returned. -/
def instructions (v : Listed) : (count : Nat) → (start : Address) → Logged Address
  | 0, start => .quiet start
  | count + 1, start => do
    let next ← v.instruction start
    v.instructions count next

end Listed

/-! ## Session data -/

def countRow (count : Nat) (one many : String) : Event :=
  match count with
  | 0 => .info ("No " ++ many)
  | 1 => .info ("1 " ++ one ++ ":")
  | n => .info (toString n ++ " " ++ many ++ ":")

namespace Listed

/-- Show the instructions with a breakpoint. -/
def breakpointRows (v : Listed) : Logged Unit := do
  note (countRow v.breakpoints.length "breakpoint" "breakpoints")
  v.breakpoints.forM fun address => do
    let _ ← v.instruction address
    pure ()

/-- The labels and their addresses, in name order. -/
def allLabelRows (v : Listed) : List Event :=
  countRow v.symbols.labels.size "label" "labels"
    :: v.symbols.labels.entries.map fun (name, offset) =>
      .info ("  " ++ name ++ " => " ++ Text.hexAddress (v.origin + offset))

end Listed

def cyclesRow (c : Computer) : Event := .info ("Cycles: " ++ toString c.cycles)

end StackRisc.Debugger
