import StackRisc.Computer.Run
import StackRisc.Debugger.Command
import StackRisc.Debugger.View

/-!
# StackRisc.Debugger.Session

A debugging session: a machine, the breakpoints, and what the last lines
said.  The session hears complete lines; how a line becomes a command is a
parameter.
-/

namespace StackRisc.Debugger

/-! ## Advancing -/

/-- How far a machine got. -/
structure Advance where
  computer : Computer
  /-- Whether it cannot run any more. -/
  halted : Bool
  log : Array Event

def haltedEvent (c : Computer) : Event :=
  .info "Program halted" [("exit_code", c.exitCodeText)]

/-- Report of a machine that cannot go on. -/
def faultEvent (fault : Fault) : Event := .warn "Halted" [("error", fault.message)]

/-- Report of a machine at a breakpoint. -/
def breakpointEvent (address : Address) : Event :=
  .info "Stopped at a breakpoint" [("address", toString address)]

/-- Step up to a number of times, but not past a point of a class. -/
def advanceWithin (isStop : Address → Bool) : (fuel : Nat) → Computer → Array Event → Advance
  | 0, c, log => ⟨c, false, log⟩
  | fuel + 1, c, log =>
    match c.cycleLimit? with
    | some fault => ⟨c, true, log.push (faultEvent fault)⟩
    | none =>
      let after := c.step
      let c := after.computer
      let log := log ++ after.log
      match after.result with
      | .error fault => ⟨c, true, log.push (faultEvent fault)⟩
      | .ok () =>
        if !c.running then ⟨c, true, log.push (haltedEvent c)⟩
        else if isStop c.cpu.registers.pc then
          ⟨c, false, log.push (breakpointEvent c.cpu.registers.pc)⟩
        else advanceWithin isStop fuel c log

/-- Execute a number of instructions, whatever the breakpoints. -/
def advanceBy (count : Nat) (c : Computer) : Advance :=
  advanceWithin (fun _ => false) count c #[]

/-- Execute at least one instruction, up to the next breakpoint. -/
def advanceToBreak (breakpoints : List Address) (c : Computer) : Advance :=
  advanceWithin breakpoints.contains c.fuel c #[]

/-! ## Breakpoints -/

/-- Add an address to some in increasing order. -/
def insertBreak (address : Address) : List Address → List Address
  | [] => [address]
  | a :: rest =>
    if address < a then address :: a :: rest
    else if address = a then a :: rest
    else a :: insertBreak address rest

/-! ## Sessions -/

/-- A debugging session. -/
structure Session where
  computer : Computer
  symbols : Symbols := {}
  /-- Where the program starts. -/
  origin : Address
  /-- The breakpoints, in increasing order. -/
  breakpoints : List Address := []
  /-- Where the next listing goes on, until the machine moves. -/
  listFrom : Option Address := none
  /-- The last line that was a command. -/
  last : Option Command := none
  /-- Whether the machine cannot run any more. -/
  halted : Bool := false

/-- What a session does with a line. -/
structure Turn where
  session : Session
  log : Array Event := #[]
  /-- The frame that was on its way to the display. -/
  frame : Option Frame := none
  /-- Whether the session is over. -/
  ended : Bool := false

namespace Session

/-- A session on a machine that has not run yet. -/
def start (computer : Computer) (symbols : Symbols) : Session :=
  { computer, symbols, origin := computer.memory.origin }

/-- What a session greets with. -/
def greeting : Event :=
  .info "Running in interactive mode. Type \"help\" to list available commands."

/-- The last word of a session whose input ended. -/
def farewell : Event := .info "EOF, exitting"

/-- What to know to show instructions. -/
def listed (s : Session) : Listed := ⟨s.computer, s.symbols, s.origin, s.breakpoints⟩

def showing (s : Session) (events : List Event) : Turn :=
  { session := s, log := events.toArray }

/-- Take over how far the machine got, with the frame it offered. -/
def moveTo (s : Session) (a : Advance) : Turn :=
  let (frame, computer) := a.computer.receive
  { session := { s with computer, halted := a.halted, listFrom := none }, log := a.log, frame }

/-- Go on with the address of an argument, if it has one. -/
def withAddress (s : Session) (a : Argument) (f : Address → Turn) : Turn :=
  match a.resolve s.symbols s.origin with
  | .ok address => f address
  | .error e => s.showing [.warn "" [("error", e.message)]]

def setBreak (s : Session) (address : Address) : Turn :=
  let field := [("address", toString address)]
  { s with breakpoints := insertBreak address s.breakpoints }.showing
    [if s.breakpoints.contains address then .warn "A breakpoint was already set" field
     else .info "Setting a breakpoint" field]

def clearBreak (s : Session) (address : Address) : Turn :=
  let field := [("address", toString address)]
  { s with breakpoints := s.breakpoints.filter (· != address) }.showing
    [if s.breakpoints.contains address then .info "Removing breakpoint" field
     else .warn "No breakpoint was set here" field]

def list (s : Session) (count : Nat) : Turn :=
  let shown := s.listed.instructions count (s.listFrom.getD s.computer.cpu.registers.pc)
  { s with listFrom := some shown.value }.showing shown.log

/-- A row between topics. -/
def ruleRow : Event := .info "–"

/-- Tell about one topic, or about all. -/
def tell (s : Session) : Option Topic → List Event
  | some .breakpoints => s.listed.breakpointRows.log
  | some .labels => s.listed.allLabelRows
  | some .cycles => [cyclesRow s.computer]
  | none =>
    s.listed.breakpointRows.log ++ ruleRow :: s.listed.allLabelRows
      ++ [ruleRow, cyclesRow s.computer]

/-- Obey a command, whatever state the machine is in. -/
def perform (s : Session) : Command → Turn
  | .exit => { session := s, ended := true }
  | .registers => s.showing (registerRows s.computer)
  | .stack => s.showing (stackRows s.computer)
  | .memory start count =>
    s.withAddress start fun a => s.showing (memoryRows s.computer count a).log
  | .list count => s.list count
  | .info topic => s.showing (s.tell topic)
  | .setBreak address => s.withAddress address s.setBreak
  | .clearBreak address => s.withAddress address s.clearBreak
  | .step count => s.moveTo (advanceBy count s.computer)
  | .resume => s.moveTo (advanceToBreak s.breakpoints s.computer)

/-- Obey a command, unless it needs a machine that can still run. -/
def obey (s : Session) (c : Command) : Turn :=
  if s.halted && c.needsMachine then
    s.showing [.warn "Computer is halted. Use \"exit\" to quit"]
  else s.perform c

/-- Hear a complete line.  An empty one stands for the last command. -/
def hear (interpret : String → Except Event Command) (s : Session) (line : String) : Turn :=
  if line.isEmpty then
    match s.last with
    | some c => s.obey c
    | none => s.showing [.info "Type \"help\" to get the list of available commands"]
  else
    match interpret line with
    | .ok c => { s with last := some c }.obey c
    | .error e => s.showing [e]

end Session

end StackRisc.Debugger
