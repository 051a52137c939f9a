import StackRisc.Host.Disk
import StackRisc.Tool.Host

/-!
# StackRisc.Tool.World

A host that is a value: a disk, the lines of the input, and all that was
printed and reported.
-/

namespace StackRisc.Tool

/-- A host as a value. -/
structure World where
  disk : Disk := {}
  /-- The lines of the input that were not read yet. -/
  input : List String := []
  /-- The lines printed, last one first. -/
  printed : List String := []
  log : Array Event := #[]
  programLog : Array Event := #[]

namespace World

/-- A computation on a world. -/
abbrev Act (α : Type) : Type := StateM World α

/-- Change the disk, unless it refuses. -/
def onDisk (f : Disk → Except HostError Disk) : Act (Except HostError Unit) := fun w =>
  match f w.disk with
  | .ok disk => (.ok (), { w with disk })
  | .error e => (.error e, w)

/-- Hand lines to a turn until it ends the loop. -/
def foldLinesOf {σ ρ : Type} (turn : σ → String → Act (σ ⊕ ρ)) : (lines : List String) → σ →
    Act (σ ⊕ ρ)
  | [], s => fun w => (.inl s, { w with input := [] })
  | line :: rest, s => fun w =>
    match turn s line { w with input := rest } with
    | (.inl s, w) => foldLinesOf turn rest s w
    | (.inr r, w) => (.inr r, w)

instance : Host Act where
  report e := fun w => ((), { w with log := w.log.push e })
  reportProgram e := fun w => ((), { w with programLog := w.programLog.push e })
  printLine line := fun w => ((), { w with printed := line :: w.printed })
  read path := fun w => (w.disk.read path, w)
  write path contents := onDisk (·.write path contents)
  remove path := onDisk (·.remove path)
  isPresent path := fun w => (w.disk.contains path, w)
  createDirectories path := fun w =>
    let (disk, result) := w.disk.createDirectories path
    (result, { w with disk })
  programFiles root := fun w => (.rooted root w.disk.read, w)
  foldLines turn s := fun w => foldLinesOf turn w.input s w

def printedText (w : World) : String := String.join (w.printed.reverse.map (· ++ "\n"))

end World

end StackRisc.Tool
