import StackRisc.Memory.Region

/-!
# StackRisc.Memory.Map

The address map: regions laid out back to back from address 0.  An address
belongs to the first region whose end is above it.  A denied access and an
access past the last region are soft: they are reported, a read gives zero
and a write is ignored.  A write to the ROM or the stack view and a word
that runs over the end of its region are hard faults.
-/

namespace StackRisc

/-- Sizes of the regions before the program ROM. -/
structure Layout where
  ram : Address := 0x00ffffff
  vram : Address := 0x00ffffff
  systemPage : Address := 0x00ffffff
  stack : Address := 0x00ffffff
  deriving DecidableEq, Repr, Inhabited

/-- The address map, in address order. -/
structure Memory where
  regions : List Region := []
  deriving Repr, Inhabited

/-- Where an access landed. -/
structure Location where
  /-- Index of the region in the address map. -/
  index : Nat
  region : Region
  /-- Distance of the address from the first one of the region. -/
  offset : Nat

namespace Memory

/-- Append a region at the end of the address space. -/
def register (m : Memory) (r : Region) : Memory := ⟨m.regions ++ [r]⟩

/-- RAM, VRAM, system page, stack view and the ROM of an image, in this order. -/
def ofLayout (layout : Layout) (image : List Byte) : Memory :=
  ⟨[.ram layout.ram.toNat, .vram layout.vram.toNat, .systemPage layout.systemPage.toNat,
    .stack layout.stack.toNat, .rom image]⟩

/-- The first region of a kind. -/
def region? (m : Memory) (kind : RegionKind) : Option Region :=
  m.regions.find? (·.kind == kind)

/-! ## Addresses of regions -/

/-- Where the first region of a kind starts in a list of regions laid out
from a start. -/
def startOf? (kind : RegionKind) : (start : Nat) → List Region → Option Nat
  | _, [] => none
  | start, r :: rest => if r.kind = kind then some start else startOf? kind (start + r.size) rest

/-- The address of the first byte of the first region of a kind, if it fits
an address. -/
def baseOf? (m : Memory) (kind : RegionKind) : Option Address :=
  match startOf? kind 0 m.regions with
  | some start => if start < UInt32.size then some (UInt32.ofNat start) else none
  | none => none

/-- The address of the program ROM, or of the ROM of the default layout if
it has none. -/
def origin (m : Memory) : Address := (m.baseOf? .rom).getD defaultOrigin

/-- Change the permissions of the first region of a kind; `none` if there is
no such region. -/
def setPermissions? (m : Memory) (kind : RegionKind) (p : Permissions) : Option Memory :=
  (change m.regions).map Memory.mk
where
  /-- Change the first region of the kind in a list. -/
  change : List Region → Option (List Region)
    | [] => none
    | r :: rest =>
      if r.kind = kind then some ({ r with permissions := p } :: rest)
      else (change rest).map (r :: ·)

/-! ## Finding the region of an address -/

/-- Find an address in regions laid out from a start, the first of which has
the given index. -/
def locateFrom (address : Address) (access : Access) :
    (index start : Nat) → List Region → Except SoftFault Location
  | _, _, [] => .error (.outOfRange access address)
  | index, start, r :: rest =>
    if address.toNat < start + r.size then
      if access.grantedBy r.permissions then .ok ⟨index, r, address.toNat - start⟩
      else .error (.unauthorized r.kind access address)
    else locateFrom address access (index + 1) (start + r.size) rest

/-- The region that owns an address, if it grants the access. -/
def locate (m : Memory) (address : Address) (access : Access) : Except SoftFault Location :=
  locateFrom address access 0 0 m.regions

/-- What a write to an address meets. -/
inductive WriteTarget where
  | at (location : Location)
  | ignored (fault : SoftFault)
  | refused (fault : MemoryFault)

/-- Find the target of a write.  Where the kind of the region forbids
writing, a denied write is a hard fault. -/
def writeTarget (m : Memory) (address : Address) : WriteTarget :=
  match m.locate address .write with
  | .ok location => .at location
  | .error fault =>
    match fault with
    | .unauthorized kind _ _ =>
      if kind.isReadOnly then .refused (.readOnly kind address) else .ignored fault
    | .outOfRange _ _ => .ignored fault

/-- Whether four bytes from a location stay inside its region. -/
def spanFits (location : Location) : Bool := location.offset + 4 ≤ location.region.size

/-! ## Reading -/

def read8 (m : Memory) (cpu : Cpu) (address : Address) : Logged Byte :=
  match m.locate address .read with
  | .ok l => l.region.read8 cpu l.offset
  | .error fault => .noting fault.event 0

/-- Read a word, least significant byte first. -/
def read32 (m : Memory) (cpu : Cpu) (address : Address) : Logged (Except MemoryFault Word) :=
  match m.locate address .read with
  | .ok l =>
    if spanFits l then do
      let w ← l.region.read32 cpu l.offset
      pure (.ok w)
    else .quiet (.error (.spanOutOfBounds l.region.kind address))
  | .error fault => .noting fault.event (.ok 0)

/-! ## Writing -/

/-- Put back a region that was written to. -/
def put (m : Memory) (index : Nat) (written : Except MemoryFault (Region × Cpu)) :
    Except MemoryFault (Memory × Cpu) :=
  match written with
  | .ok (r, cpu) => .ok (⟨m.regions.set index r⟩, cpu)
  | .error fault => .error fault

def write8 (m : Memory) (cpu : Cpu) (address : Address) (v : Byte) :
    Logged (Except MemoryFault (Memory × Cpu)) :=
  match m.writeTarget address with
  | .at l => do
    let written ← l.region.write8 cpu l.offset address v
    pure (m.put l.index written)
  | .ignored fault => .noting fault.event (.ok (m, cpu))
  | .refused fault => .quiet (.error fault)

/-- Write a word, least significant byte first. -/
def write32 (m : Memory) (cpu : Cpu) (address : Address) (v : Word) :
    Logged (Except MemoryFault (Memory × Cpu)) :=
  match m.writeTarget address with
  | .at l =>
    if spanFits l then do
      let written ← l.region.write32 cpu l.offset address v
      pure (m.put l.index written)
    else .quiet (.error (.spanOutOfBounds l.region.kind address))
  | .ignored fault => .noting fault.event (.ok (m, cpu))
  | .refused fault => .quiet (.error fault)

end Memory

end StackRisc
