import StackRisc.Debugger.Prompt
import StackRisc.Debugger.Session
import StackRisc.Tool.FrameSink

/-!
# StackRisc.Tool.Debug

A debugging session on a host: lines come from the input, events are
reported, and frames go to a sink.
-/

namespace StackRisc.Tool

open Debugger

variable {m : Type → Type} [Monad m] [Host m]

/-- A session between two lines. -/
structure Dialogue where
  session : Session
  sink : FrameSink := {}
  /-- The lines of a command whose quotes are still open. -/
  held : String := ""
  /-- The directory that the program reads from, if it is one of the host. -/
  dataDirectory : Option String := none

namespace Dialogue

/-- Hand a frame to the sink.  What was written may be a file of the program. -/
def showFrame (d : Dialogue) (f : Frame) : Task m Dialogue := do
  let sink ← d.sink.accept f
  match d.dataDirectory with
  | some path => do
    let files ← ExceptT.lift (Host.programFiles path)
    let session := { d.session with computer := d.session.computer.withFiles files }
    pure { d with sink, session }
  | none => pure { d with sink }

/-- Report a turn and take over its session. -/
def take (d : Dialogue) (t : Turn) : Task m Dialogue := do
  t.log.toList.forM report
  let d := { d with session := t.session, held := "" }
  match t.frame with
  | some f => d.showFrame f
  | none => pure d

/-- Go on after a turn, unless the session is over. -/
def turn (d : Dialogue) (t : Turn) : m (Dialogue ⊕ Except Error Computer) := do
  match ← (d.take t).run with
  | .error e => pure (.inr (.error e))
  | .ok d => pure (if t.ended then .inr (.ok d.session.computer) else .inl d)

/-- Hear a line of the input. -/
def hear (d : Dialogue) (line : String) : m (Dialogue ⊕ Except Error Computer) :=
  match addLine d.held line with
  | .unfinished text => pure (.inl { d with held := text })
  | .complete line => d.turn (d.session.hear Command.ofLine line)

end Dialogue

def debug (d : Dialogue) : Task m Computer := do
  report Session.greeting
  match ← ExceptT.lift (Host.foldLines Dialogue.hear d) with
  | .inr (.ok computer) => pure computer
  | .inr (.error e) => throw e
  | .inl d => do
    report Session.farewell
    pure d.session.computer

end StackRisc.Tool
