import StackRisc.Display.Link
import StackRisc.Fault
import StackRisc.Memory.Map
import StackRisc.Syscall

/-!
# StackRisc.Computer.State

The whole machine: processor, address map, display parameters, counters and
the host services around it, and how a program image is loaded.
-/

namespace StackRisc

/-- Number of bytes of an assembled image, and of the program ROM. -/
def programSize : Nat := 4096

/-- The machine. -/
structure Computer where
  cpu : Cpu
  memory : Memory
  display : DisplayState := {}
  running : Bool := true
  initialized : Bool := false
  /-- Number of instructions executed. -/
  cycles : Nat := 0
  exitCode : Option Word := none
  /-- Lines printed by the program. -/
  console : Array String := #[]
  /-- Number of cycles after which a run is cut. -/
  maxCycles : Option Nat := none
  syscalls : SyscallTable := .standard
  files : FileSystem
  /-- The hand-off to a display, if one is attached. -/
  link : Option DisplayLink := none

/-- What a machine is built with, beside its program. -/
structure Config where
  layout : Layout := {}
  maxCycles : Option Nat := none
  syscalls : SyscallTable := .standard
  files : FileSystem

/-- Why a program image was refused. -/
inductive LoadError where
  | tooLarge (size : Nat)
  deriving DecidableEq, Repr

def LoadError.message : LoadError → String
  | tooLarge size =>
    "program image is " ++ toString size ++ " bytes long, the program ROM holds "
      ++ toString programSize

namespace Computer

/-- An image filled up with zeros to the size of the ROM. -/
def padImage (image : List Byte) : List Byte :=
  image ++ List.replicate (programSize - image.length) 0

/-- A machine with an image in its ROM, about to execute its first byte. -/
def ofImage (config : Config) (image : List Byte) : Computer :=
  let memory := Memory.ofLayout config.layout (padImage image)
  { cpu := { registers := { pc := memory.origin } }
    memory
    maxCycles := config.maxCycles
    syscalls := config.syscalls
    files := config.files }

/-- Load an image, if the ROM holds it. -/
def load (config : Config) (image : List Byte) : Except LoadError Computer :=
  if image.length > programSize then .error (.tooLarge image.length)
  else .ok (ofImage config image)

def withFiles (c : Computer) (files : FileSystem) : Computer := { c with files }

def attachDisplay (c : Computer) : Computer := { c with link := some {} }

end Computer

end StackRisc
