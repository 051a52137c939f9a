import StackRisc.Display.Frame

/-!
# StackRisc.Display.Link

The hand-off of frames from the machine to a display: a buffer of at most
one frame.  The machine offers, the display takes; a display that hung up
takes nothing any more.
-/

namespace StackRisc

/-- Both ends of the frame hand-off. -/
structure DisplayLink where
  /-- The frame on its way. -/
  buffer : Option Frame := none
  /-- Whether the display still listens. -/
  connected : Bool := true
  deriving DecidableEq, Repr, Inhabited

/-- What became of an offered frame. -/
inductive Offer where
  | delivered (link : DisplayLink)
  | busy
  | disconnected
  deriving DecidableEq, Repr

namespace DisplayLink

/-- Offer a frame to the display. -/
def offer (link : DisplayLink) (frame : Frame) : Offer :=
  if !link.connected then .disconnected
  else
    match link.buffer with
    | none => .delivered { link with buffer := some frame }
    | some _ => .busy

/-- Take the frame on its way, if there is one. -/
def receive (link : DisplayLink) : Option Frame × DisplayLink :=
  (link.buffer, { link with buffer := none })

/-- Stop listening; a frame on its way is lost. -/
def hangUp (_ : DisplayLink) : DisplayLink := ⟨none, false⟩

end DisplayLink

end StackRisc
