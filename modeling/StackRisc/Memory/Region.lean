import StackRisc.Cpu
import StackRisc.Memory.Block

/-!
# StackRisc.Memory.Region

A region of the address space and what one access inside it does.  RAM, VRAM
and the program ROM hold bytes; the system page and the stack view show the
processor.  Writing to the stack view or the ROM is refused whatever the
permissions say.
-/

namespace StackRisc

/-! ## Kinds and permissions -/

inductive RegionKind where
  | ram | vram | systemPage | stack | rom
  deriving DecidableEq, Repr, Inhabited

namespace RegionKind

def name : RegionKind → String
  | ram => "RAM"
  | vram => "VRAM"
  | systemPage => "system page"
  | stack => "stack"
  | rom => "program ROM"

/-- The kinds that no permission makes writable. -/
def isReadOnly : RegionKind → Bool
  | stack | rom => true
  | ram | vram | systemPage => false

end RegionKind

/-- What may be done with the bytes of a region. -/
structure Permissions where
  read : Bool
  write : Bool
  execute : Bool
  deriving DecidableEq, Repr, Inhabited

namespace Permissions

/-- The permissions of a bit mask; other bits are dropped. -/
def ofBits (bits : Nat) : Permissions :=
  ⟨bits.testBit 0, bits.testBit 1, bits.testBit 2⟩

def bits (p : Permissions) : Nat :=
  (if p.read then 1 else 0) + (if p.write then 2 else 0) + (if p.execute then 4 else 0)

end Permissions

/-- A way to use an address. -/
inductive Access where
  | read | write
  deriving DecidableEq, Repr, Inhabited

namespace Access

def name : Access → String
  | read => "read"
  | write => "write"

/-- Whether permissions grant an access. -/
def grantedBy (p : Permissions) : Access → Bool
  | read => p.read
  | write => p.write

end Access

/-! ## Refused accesses -/

/-- An access that aborts the execution. -/
inductive MemoryFault where
  /-- A write to a region that is read-only by its kind. -/
  | readOnly (region : RegionKind) (address : Address)
  /-- A four-byte access that runs over the end of its region. -/
  | spanOutOfBounds (region : RegionKind) (address : Address)
  deriving DecidableEq, Repr, Inhabited

def MemoryFault.message : MemoryFault → String
  | readOnly region address =>
    "write to the read-only " ++ region.name ++ " at address " ++ Text.hexShort address.toNat
  | spanOutOfBounds region address =>
    "4-byte access at address " ++ Text.hexShort address.toNat ++ " overflows the " ++ region.name

/-- An access that is reported and otherwise ignored. -/
inductive SoftFault where
  /-- The region does not grant the access. -/
  | unauthorized (region : RegionKind) (access : Access) (address : Address)
  /-- No region owns the address. -/
  | outOfRange (access : Access) (address : Address)
  deriving DecidableEq, Repr, Inhabited

namespace SoftFault

def message : SoftFault → String
  | unauthorized region access address =>
    "unauthorized memory " ++ access.name ++ " in " ++ region.name ++ " at address "
      ++ Text.hexShort address.toNat
  | outOfRange access address =>
    "out of range memory " ++ access.name ++ " at address " ++ Text.hexShort address.toNat

/-- How a soft fault is reported: a denied access as an error, one outside
the address map as a warning. -/
def event (fault : SoftFault) : Event :=
  match fault with
  | unauthorized .. => .error fault.message
  | outOfRange .. => .warn fault.message

end SoftFault

/-! ## The system page -/

namespace SystemPage

/-- The word shown at an offset of the system page: the program counter at
0, the carry at 4, the depth of the call stack at 8, zero elsewhere. -/
def value (cpu : Cpu) (offset : Nat) : Word :=
  match offset with
  | 0 => Word.ofAddress cpu.registers.pc
  | 4 => Word.ofByte cpu.registers.carry
  | 8 => Int32.ofNat (min cpu.calls.depth Word.largest)
  | _ => 0

/-- Store a word at an offset of the system page.  Only the program counter
and the carry can be changed. -/
def store (cpu : Cpu) (offset : Nat) (v : Word) : Logged Cpu :=
  match offset with
  | 0 => .quiet (cpu.jump v.toAddress)
  | 4 => .quiet { cpu with registers := { cpu.registers with carry := v.lowByte } }
  | 8 => .noting (.warn "Cannot write to the call stack depth") cpu
  | _ => .quiet cpu

end SystemPage

/-! ## Regions -/

/-- A region of the address space. -/
structure Region where
  kind : RegionKind
  size : Nat
  permissions : Permissions
  /-- The bytes of RAM, VRAM and ROM; empty for the regions that show the processor. -/
  block : Block
  deriving Repr, Inhabited

namespace Region

def ram (size : Nat) : Region := ⟨.ram, size, ⟨true, true, false⟩, .zeros size⟩

def vram (size : Nat) : Region := ⟨.vram, size, ⟨true, true, false⟩, .zeros size⟩

def systemPage (size : Nat) : Region := ⟨.systemPage, size, ⟨true, true, false⟩, .zeros 0⟩

def stack (size : Nat) : Region := ⟨.stack, size, ⟨true, false, false⟩, .zeros 0⟩

/-- The ROM of an image; at most the addressable part of it is mapped. -/
def rom (image : List Byte) : Region :=
  ⟨.rom, min image.length (UInt32.size - 1), ⟨true, false, true⟩, .ofList image⟩

/-- Report of a read below the bottom of the operand stack. -/
def stackReadEvent (cpu : Cpu) (offset : Nat) : Event :=
  .error "Out of bounds stack read"
    [("offset", toString offset), ("depth", toString cpu.stack.size)]

def read8 (r : Region) (cpu : Cpu) (offset : Nat) : Logged Byte :=
  match r.kind with
  | .ram | .vram | .rom => .quiet ((r.block.get? offset).getD 0)
  | .systemPage => .quiet (SystemPage.value cpu offset).lowByte
  | .stack =>
    match cpu.stack.bytes[offset]? with
    | some b => .quiet b
    | none => .noting (stackReadEvent cpu offset) 0

/-- The word at an offset.  The stack view shows the top byte as the least
significant one. -/
def read32 (r : Region) (cpu : Cpu) (offset : Nat) : Logged Word :=
  match r.kind with
  | .ram | .vram | .rom => .quiet ((r.block.word? offset).getD 0)
  | .systemPage => .quiet (SystemPage.value cpu offset)
  | .stack =>
    match Word.read? cpu.stack.bytes offset with
    | some w => .quiet w
    | none => .noting (stackReadEvent cpu offset) 0

/-- The region and the processor after a byte was stored at an offset; the
address is for the fault. -/
def write8 (r : Region) (cpu : Cpu) (offset : Nat) (address : Address) (v : Byte) :
    Logged (Except MemoryFault (Region × Cpu)) :=
  match r.kind with
  | .ram | .vram => .quiet (.ok ({ r with block := r.block.set offset v }, cpu))
  | .systemPage => do
    let cpu ← SystemPage.store cpu offset (Word.ofByte v)
    pure (.ok (r, cpu))
  | .stack | .rom => .quiet (.error (.readOnly r.kind address))

/-- The region and the processor after a word was stored at an offset. -/
def write32 (r : Region) (cpu : Cpu) (offset : Nat) (address : Address) (v : Word) :
    Logged (Except MemoryFault (Region × Cpu)) :=
  match r.kind with
  | .ram | .vram =>
    .quiet (.ok ({ r with block := (r.block.setWord? offset v).getD r.block }, cpu))
  | .systemPage => do
    let cpu ← SystemPage.store cpu offset v
    pure (.ok (r, cpu))
  | .stack | .rom => .quiet (.error (.readOnly r.kind address))

end Region

end StackRisc
