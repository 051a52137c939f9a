import StackRisc.Proofs.Computer.Control
import StackRisc.Proofs.Computer.Progress

/-!
# StackRisc.Proofs.Display.Schedule

A machine in front of its display.  Of a step only the end touches the display,
where a frame is offered, so what the display does meanwhile falls between two
steps: a schedule says what it does before each.  `Showing` follows a machine
through a schedule and keeps the history of the hand-off.

* `Showing.sameOffDisplay_after` — whatever the schedule, the machine makes the
  steps that it makes by itself;
* `display_noninterference` — so two schedules lead to machines that differ at
  most in the display.
-/

namespace StackRisc

open StackRisc.Action

/-- What a display does between two steps. -/
inductive DisplayAct where
  /-- It takes the frame on its way, if there is one. -/
  | take
  | hangUp
  deriving DecidableEq, Repr

/-! ## Deliveries -/

namespace Computer

/-- The frame that is delivered when a pending blit is presented. -/
def presented? (c : Computer) : Option Frame :=
  if c.display.blitRequested then
    match c.link with
    | none => none
    | some link =>
      match Frame.capture c.display c.vram with
      | .error _ => none
      | .ok frame =>
        match link.offer frame with
        | .delivered _ => some frame
        | .busy | .disconnected => none
  else none

/-- The frame that a step delivers, after its instruction. -/
def delivery? (c : Computer) : Option Frame :=
  match (attempt.run c).result with
  | .ok (i, flow) => ((attempt.run c).computer.counted i flow).presented?
  | .error _ => none

end Computer

/-! ## Machine and display in turn -/

/-- A machine with the history of its hand-off. -/
structure Showing where
  computer : Computer
  /-- The frames that the display has taken, oldest first. -/
  received : List Frame := []
  /-- The frames that the machine has delivered, oldest first. -/
  delivered : List Frame := []
  /-- How often the machine has called the service that requests a blit. -/
  requests : Nat := 0

namespace Showing

/-- A machine at the start of its history. -/
def start (c : Computer) : Showing := { computer := c }

/-- The display does something. -/
def act (s : Showing) : DisplayAct → Showing
  | .take =>
    { s with
      computer := s.computer.receive.2
      received := s.received ++ s.computer.receive.1.toList }
  | .hangUp => { s with computer := s.computer.hangUp }

/-- The display does several things, one after the other. -/
def pause (s : Showing) (acts : List DisplayAct) : Showing := acts.foldl act s

/-- The machine makes a step. -/
def step (s : Showing) : Showing :=
  { s with
    computer := s.computer.step.computer
    delivered := s.delivered ++ s.computer.delivery?.toList
    requests := s.requests + if s.computer.Calls .blit then 1 else 0 }

/-- After some steps, with what the display did before each of them and has
done since the last. -/
def after (acts : Nat → List DisplayAct) (s : Showing) : Nat → Showing
  | 0 => s.pause (acts 0)
  | n + 1 => (s.after acts n).step.pause (acts (n + 1))

variable {s : Showing} {c : Computer} {acts acts' : Nat → List DisplayAct} {n : Nat}

/-! ## Pauses -/

/-- What holds after each act of a display, if it held before, holds after a
pause. -/
theorem pause_induction {P : Showing → Prop} {acts : List DisplayAct} (hs : P s)
    (hact : ∀ s, ∀ a ∈ acts, P s → P (s.act a)) : P (s.pause acts) := by
  induction acts generalizing s with
  | nil => exact hs
  | cons a rest ih =>
      exact ih (hact s a List.mem_cons_self hs) fun s b hb =>
        hact s b (List.mem_cons_of_mem a hb)

/-- The display acts on itself alone. -/
theorem sameOffDisplay_act (s : Showing) (a : DisplayAct) :
    s.computer.SameOffDisplay (s.act a).computer := by
  cases a with
  | take => exact s.computer.sameOffDisplay_receive
  | hangUp => rfl

/-- So it does in a pause. -/
theorem sameOffDisplay_pause (s : Showing) (acts : List DisplayAct) :
    s.computer.SameOffDisplay (s.pause acts).computer :=
  pause_induction (P := fun t => s.computer.SameOffDisplay t.computer) (.refl s.computer)
    fun t a _ h => h.trans (t.sameOffDisplay_act a)

/-- Whatever the display does, the machine makes the steps that it makes by
itself. -/
theorem sameOffDisplay_after (s : Showing) (acts : Nat → List DisplayAct) (n : Nat) :
    (s.computer.after n).SameOffDisplay (s.after acts n).computer := by
  induction n with
  | zero => exact s.sameOffDisplay_pause (acts 0)
  | succ n ih =>
      rw [Computer.after_succ']
      exact ih.step.2.trans ((s.after acts n).step.sameOffDisplay_pause (acts (n + 1)))

end Showing

/-- The display has no influence on the program.  Two machines that differ at
most in the display attached to them make the same steps, with the same
results, whatever the two displays do between the steps. -/
theorem display_noninterference (c : Computer) (link link' : Option DisplayLink)
    (acts acts' : Nat → List DisplayAct) (n : Nat) :
    let d := ((Showing.start { c with link := link }).after acts n).computer
    let d' := ((Showing.start { c with link := link' }).after acts' n).computer
    d.cpu = d'.cpu ∧ d.memory = d'.memory ∧ d.running = d'.running ∧
      d.initialized = d'.initialized ∧ d.cycles = d'.cycles ∧ d.exitCode = d'.exitCode ∧
      d.console = d'.console ∧ d.display.mode = d'.display.mode ∧
      d.display.width = d'.display.width ∧ d.display.height = d'.display.height ∧
      d.step.result = d'.step.result := by
  intro d d'
  have hstart : Computer.SameOffDisplay { c with link := link } { c with link := link' } := rfl
  have hd := (Showing.start { c with link := link }).sameOffDisplay_after acts n
  have hd' := (Showing.start { c with link := link' }).sameOffDisplay_after acts' n
  have hsame : d.SameOffDisplay d' := hd.symm.trans ((hstart.after n).trans hd')
  have eq_of {α : Type} (f : Computer → α) : f d.offDisplay = f d'.offDisplay := congrArg f hsame
  exact ⟨eq_of (·.cpu), eq_of (·.memory), eq_of (·.running), eq_of (·.initialized),
    eq_of (·.cycles), eq_of (·.exitCode), eq_of (·.console), eq_of (·.display.mode),
    eq_of (·.display.width), eq_of (·.display.height), hsame.step.1⟩

end StackRisc
