import StackRisc.Word

/-!
# StackRisc.Syscall

The host services that a program asks for by number, and tables that say
which number stands for which service.
-/

namespace StackRisc

inductive Syscall where
  | exit | print | assert | blit | initialized | toggleWidth | readFileChunk
  | displayMode | displayWidth | displayHeight
  deriving DecidableEq, Repr, Inhabited

namespace Syscall

/-- All services, each at the index of its standard number. -/
def all : List Syscall :=
  [exit, print, assert, blit, initialized, toggleWidth, readFileChunk,
   displayMode, displayWidth, displayHeight]

end Syscall

/-- Services by number, in increasing order of the numbers. -/
structure SyscallTable where
  entries : List (Word × Syscall) := []
  deriving DecidableEq, Repr, Inhabited

namespace SyscallTable

def empty : SyscallTable := {}

def get? (t : SyscallTable) (index : Word) : Option Syscall :=
  (t.entries.find? (·.1 == index)).map Prod.snd

/-- Put a service under a number in ordered entries. -/
def insert (index : Word) (service : Syscall) : List (Word × Syscall) → List (Word × Syscall)
  | [] => [(index, service)]
  | e :: rest =>
    if index < e.1 then (index, service) :: e :: rest
    else if index = e.1 then (index, service) :: rest
    else e :: insert index service rest

/-- Put a service under a number, replacing the one it had. -/
def register (t : SyscallTable) (index : Word) (service : Syscall) : SyscallTable :=
  ⟨insert index service t.entries⟩

/-- The table every program can rely on. -/
def standard : SyscallTable :=
  ⟨(Syscall.all.zipIdx).map fun (service, i) => (Int32.ofNat i, service)⟩

/-- The numbers that have a service. -/
def indices (t : SyscallTable) : List Word := t.entries.map Prod.fst

/-- The numbers as a set in braces. -/
def text (t : SyscallTable) : String :=
  "\x7b" ++ ", ".intercalate (t.indices.map fun i => toString i.toInt) ++ "\x7d"

end SyscallTable

end StackRisc
