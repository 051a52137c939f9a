import StackRisc.Event
import StackRisc.FileSystem

/-!
# StackRisc.Tool.Host

What the tool asks of the host it runs on.  The commands of the tool are
written against these requests alone, so that they run on a real host and on
a world that is a value.
-/

namespace StackRisc.Tool

/-- A host of the tool. -/
class Host (m : Type → Type) where
  /-- Report an event. -/
  report : Event → m Unit
  /-- Report an event of the running program. -/
  reportProgram : Event → m Unit
  /-- Print a line. -/
  printLine : String → m Unit
  /-- Read a whole file. -/
  read : String → m (Except HostError (List Byte))
  /-- Write a whole file. -/
  write : String → List Byte → m (Except HostError Unit)
  /-- Remove a file. -/
  remove : String → m (Except HostError Unit)
  /-- Whether there is something at a path. -/
  isPresent : String → m Bool
  /-- Create a directory and those above it. -/
  createDirectories : String → m (Except HostError Unit)
  /-- The files below a directory, for a program to read. -/
  programFiles : String → m FileSystem
  /-- Hand the lines of the input to a turn, one by one, until a turn ends
  the loop or the input ends.  In the second case the state is left. -/
  foldLines : {σ ρ : Type} → (turn : σ → String → m (σ ⊕ ρ)) → σ → m (σ ⊕ ρ)

end StackRisc.Tool
