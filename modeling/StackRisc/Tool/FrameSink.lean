import StackRisc.Display.Frame
import StackRisc.Tool.Request

/-!
# StackRisc.Tool.FrameSink

Where frames go: every frame is reported, and written as a numbered image if
there is a directory for them.
-/

namespace StackRisc.Tool

variable {m : Type → Type} [Monad m] [Host m]

/-- Where frames go. -/
structure FrameSink where
  directory : Option String := none
  /-- Number of frames so far. -/
  count : Nat := 0
  deriving DecidableEq, Repr, Inhabited

namespace FrameSink

/-- A sink, whose directory is created. -/
def prepare (directory : Option String) : Task m FrameSink := do
  match directory with
  | some path => request (Host.createDirectories path) (.create path)
  | none => pure ()
  pure { directory }

/-- The name of the image of a frame. -/
def fileName (index : Nat) : String :=
  "frame-" ++ Text.padLeft 4 '0' (toString index) ++ ".ppm"

def event (index : Nat) (f : Frame) : Event :=
  .info "Frame blitted"
    [("index", toString index), ("mode", f.mode.name), ("width", toString f.width),
     ("height", toString f.height)]

/-- Write the image of a frame; one without colours is reported. -/
def writeImage (directory : String) (index : Nat) (f : Frame) : Task m Unit := do
  match f.toPpm with
  | .ok image =>
    let path := Path.join directory (fileName index)
    request (Host.write path image) (.write path)
  | .error e =>
    report (.warn ("Frame not written: " ++ e.message) [("index", toString index)])

def accept (sink : FrameSink) (f : Frame) : Task m FrameSink := do
  report (event sink.count f)
  match sink.directory with
  | some directory => writeImage directory sink.count f
  | none => pure ()
  pure { sink with count := sink.count + 1 }

end FrameSink

end StackRisc.Tool
