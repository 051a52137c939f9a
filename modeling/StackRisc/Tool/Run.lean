import StackRisc.Tool.Debug

/-!
# StackRisc.Tool.Run

The command that runs a program image, at once or in the debugger.
-/

namespace StackRisc.Tool

variable {m : Type → Type} [Monad m] [Host m]

/-- What to run, and how. -/
structure RunOptions where
  image : String
  interactive : Bool := false
  /-- Where frames are written. -/
  frames : Option String := none
  symbols : Option String := none
  ramSize : Address := Layout.ram {}
  vramSize : Address := Layout.vram {}
  /-- The directory the program reads its files from. -/
  dataDirectory : String := "data"
  maxCycles : Option Nat := none
  deriving DecidableEq, Repr, Inhabited

/-- The configuration of the machine, which is not given any files yet. -/
def RunOptions.config (o : RunOptions) : Config :=
  { layout := { ram := o.ramSize, vram := o.vramSize }, maxCycles := o.maxCycles
    files := .empty }

/-- Report of the registers at the end. -/
def registersField (c : Computer) : String × String := ("registers", c.cpu.registers.text)

def runDebugger (o : RunOptions) (c : Computer) (sink : FrameSink) : Task m Unit := do
  let symbols ← loadSymbols o.image o.symbols
  let c ← debug
    { session := .start c symbols, sink, dataDirectory := some o.dataDirectory }
  report (.info "End of program" [registersField c])

def reportEnding (e : Execution) : Task m Unit := do
  match e.ending with
  | .halted =>
    match e.computer.exitCode with
    | some code => report (.info "Program exited" [("code", toString code.toInt)])
    | none => pure ()
  | .faulted fault => do
    match fault with
    | .exception cause => report (.error cause.message [("code", toString cause.code)])
    | _ => pure ()
    throw (.fault fault)
  | .unfinished => throw .unfinished

/-- Run to the end. -/
def runThrough (c : Computer) (sink : FrameSink) : Task m Unit := do
  report (.info "Running program")
  let (e, frames) := c.runShowing
  e.log.toList.forM fun event => ExceptT.lift (Host.reportProgram event)
  let _ ← frames.toList.foldlM FrameSink.accept sink
  report (.info "End of program"
    [registersField e.computer, ("cycles", toString e.computer.cycles),
     ("lines", toString e.computer.console.size)])
  reportEnding e

/-- Run an image.  The directory of the frames is made before the program's
files are looked up: it may be the one that the program reads from. -/
def runImage (o : RunOptions) : Task m Unit := do
  report (.info "Reading program image" [("path", o.image)])
  let image ← readBytes o.image
  match Computer.load o.config image with
  | .error e => throw (.load e)
  | .ok c => do
    let sink ← FrameSink.prepare o.frames
    let files ← ExceptT.lift (Host.programFiles o.dataDirectory)
    let c := (c.withFiles files).attachDisplay
    if o.interactive then runDebugger o c sink else runThrough c sink

end StackRisc.Tool
