import StackRisc.Computer.Step

/-!
# StackRisc.Computer.Run

Runs: steps until the program halts, a step faults or the cycle limit is
reached.  Every loop is bounded by the cycles that are left; without a limit
the bound is the range of a 64-bit cycle counter.
-/

namespace StackRisc

/-- How a run ended. -/
inductive Ending where
  | halted
  | faulted (fault : Fault)
  /-- The bound of the loop was reached; only without a cycle limit. -/
  | unfinished
  deriving DecidableEq, Repr

/-- What a run leaves behind. -/
structure Execution where
  ending : Ending
  computer : Computer
  log : Array Event

namespace Computer

/-- The fault of a machine that has used up its cycles. -/
def cycleLimit? (c : Computer) : Option Fault :=
  match c.maxCycles with
  | some limit => if limit ≤ c.cycles then some (.cycleLimit limit) else none
  | none => none

/-- Number of steps that are enough to see a run end: those that are left
before the limit, and one to meet it. -/
def fuel (c : Computer) : Nat :=
  match c.maxCycles with
  | some limit => limit - c.cycles + 1
  | none => UInt64.size

def exitCodeText (c : Computer) : String :=
  match c.exitCode with
  | some code => "Some(" ++ toString code.toInt ++ ")"
  | none => "None"

def haltedEvent (c : Computer) : Event :=
  .info "Program halted" [("cycles", toString c.cycles), ("exit_code", c.exitCodeText)]

/-- Step while the machine runs, adding to a log. -/
def runWithin : (fuel : Nat) → Computer → Array Event → Execution
  | 0, c, log => ⟨.unfinished, c, log⟩
  | fuel + 1, c, log =>
    if c.running then
      match c.cycleLimit? with
      | some fault => ⟨.faulted fault, c, log⟩
      | none =>
        let after := c.step
        match after.result with
        | .ok () => runWithin fuel after.computer (log ++ after.log)
        | .error fault => ⟨.faulted fault, after.computer, log ++ after.log⟩
    else ⟨.halted, c, log.push c.haltedEvent⟩

/-- Step until the program halts. -/
def run (c : Computer) : Execution := runWithin c.fuel c #[]

/-! ## With a display -/

def receive (c : Computer) : Option Frame × Computer :=
  match c.link with
  | some link =>
    let (frame, link) := link.receive
    (frame, { c with link := some link })
  | none => (none, c)

def hangUp (c : Computer) : Computer :=
  { c with link := c.link.map DisplayLink.hangUp }

/-- Run as `runWithin`, with a display that takes every frame as soon as it
is delivered. -/
def runShowingWithin : (fuel : Nat) → Computer → Array Event → Array Frame →
    Execution × Array Frame
  | 0, c, log, frames => (⟨.unfinished, c, log⟩, frames)
  | fuel + 1, c, log, frames =>
    if c.running then
      match c.cycleLimit? with
      | some fault => (⟨.faulted fault, c, log⟩, frames)
      | none =>
        let after := c.step
        let (frame, c) := after.computer.receive
        let frames := frames ++ frame.toList
        match after.result with
        | .ok () => runShowingWithin fuel c (log ++ after.log) frames
        | .error fault => (⟨.faulted fault, c, log ++ after.log⟩, frames)
    else (⟨.halted, c, log.push c.haltedEvent⟩, frames)

/-- Run until the program halts, collecting the frames shown. -/
def runShowing (c : Computer) : Execution × Array Frame :=
  runShowingWithin c.fuel c #[] #[]

end Computer

end StackRisc
