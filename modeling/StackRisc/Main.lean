import StackRisc.Tool.Command

/-!
# StackRisc.Main

The program: the tool on the host that it runs on.
-/

namespace StackRisc.Main

open Tool

/-- The refusal that an error of the host stands for. -/
def hostError : IO.Error → HostError
  | .noFileOrDirectory .. => .notFound
  | .alreadyExists .. => .alreadyExists
  | .inappropriateType _ 20 _ => .notDirectory
  | .inappropriateType _ _ _ => .isDirectory
  | e => .other (toString e)

/-- Do something to the host, which may refuse it. -/
def attempt {α : Type} (x : IO α) : IO (Except HostError α) := do
  try
    pure (.ok (← x))
  catch e => pure (.error (hostError e))

/-- Hand the lines of the standard input to a turn until it ends the loop. -/
partial def foldInput {σ ρ : Type} (input : IO.FS.Stream) (turn : σ → String → IO (σ ⊕ ρ))
    (s : σ) : IO (σ ⊕ ρ) := do
  let line ← input.getLine
  if line.isEmpty then pure (.inl s)
  else
    let cs := line.toList
    match ← turn s (String.ofList (if cs.getLast? = some '\n' then cs.dropLast else cs)) with
    | .inl s => foldInput input turn s
    | .inr r => pure (.inr r)

/-- The files and directories below a directory, by their paths from there. -/
partial def entriesBelow (directory path : String) : IO (List (String × Node)) := do
  let entries ← (← IO.FS.realPath directory).readDir
  let found ← entries.toList.mapM fun e => do
    let below := Path.join path e.fileName
    if ← e.path.isDir then
      pure ((below, Node.directory) :: (← entriesBelow e.path.toString below))
    else
      match ← attempt (IO.FS.readBinFile e.path) with
      | .ok contents => pure [(below, Node.file contents.data.toList)]
      | .error _ => pure []
  pure found.flatten

/-- The files below a directory, as they are now. -/
def filesBelow (directory : String) : IO FileSystem := do
  match ← attempt (entriesBelow directory "") with
  | .ok entries =>
    let disk := Disk.ofEntries (entries.map fun e => (Path.segments e.1, e.2))
    pure (.rooted "." disk.read)
  | .error e => pure (.rooted "" fun _ => .error e)

instance : Host IO where
  report e := IO.println e.text
  reportProgram e := IO.println e.text
  printLine := IO.println
  read path := attempt do
    let contents ← IO.FS.readBinFile path
    pure contents.data.toList
  write path contents := attempt (IO.FS.writeBinFile path ⟨contents.toArray⟩)
  remove path := attempt (IO.FS.removeFile path)
  isPresent path := do
    match ← attempt (IO.FS.Handle.mk path .read) with
    | .ok _ => pure true
    | .error _ => pure false
  createDirectories path := attempt (IO.FS.createDirAll path)
  programFiles := filesBelow
  foldLines turn s := do
    foldInput (← IO.getStdin) turn s

/-- Carry out a command line and report what went wrong. -/
def run (words : List String) : IO UInt32 := do
  let task : Task IO Unit := execute words
  match ← task.run with
  | .ok () => pure 0
  | .error (.usage (.help about)) => do
    IO.println about
    pure 0
  | .error (.usage e) => do
    IO.eprintln e.message
    pure 2
  | .error e => do
    IO.eprintln e.message
    pure 1

end StackRisc.Main

def main (args : List String) : IO UInt32 := StackRisc.Main.run args
