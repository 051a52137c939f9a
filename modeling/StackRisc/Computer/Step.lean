import StackRisc.Arithmetic
import StackRisc.Computer.Service

/-!
# StackRisc.Computer.Step

One step of the machine: fetch and decode the instruction at the program
counter, execute it, move the program counter unless the instruction did,
count the cycle, and offer a frame to the display if one was requested.
-/

namespace StackRisc

open StackRisc.Action

/-! ## Fetching -/

namespace Computer

/-- Decode the instruction at an address, without executing it. -/
def instructionAt (c : Computer) (address : Address) : Logged (Except Fault Instruction) :=
  let code := c.memory.read8 c.cpu address
  match Opcode.ofByte? code.value with
  | none => ⟨.error (.exception (.invalidInstruction code.value address)), code.log⟩
  | some op =>
    if op.hasOperand then
      let operand := c.memory.read32 c.cpu (address + 1)
      match operand.value with
      | .ok w => ⟨.ok (.ofOpcode op w), code.log ++ operand.log⟩
      | .error fault => ⟨.error (.exception (.memory fault)), code.log ++ operand.log⟩
    else ⟨.ok (.ofOpcode op 0), code.log⟩

end Computer

/-- Decode the instruction at the program counter; a failure is reported. -/
def fetch : Action Instruction := fun c =>
  let fetched := c.instructionAt c.cpu.registers.pc
  match fetched.value with
  | .ok i => ⟨.ok i, c, fetched.log⟩
  | .error fault => ⟨.error fault, c, fetched.log ++ [.error "" [("error", fault.message)]]⟩

/-! ## Executing -/

/-- What the program counter does after an instruction. -/
inductive Flow where
  /-- It moves to the next instruction. -/
  | next
  /-- The instruction has set it. -/
  | jump
  deriving DecidableEq, Repr

/-- Pop a value and combine it with the accumulator. -/
def combine (f : Width → (a b : Word) → Word) : Action Flow := do
  let c ← get
  let a ← pop
  let b ← accumulator
  setAccumulator (f c.cpu.width a b)
  pure .next

/-- Pop a value and set the carry by comparing it with the accumulator. -/
def compare (test : (a b : Word) → Bool) : Action Flow := do
  let a ← pop
  let b ← accumulator
  modifyCpu (·.setCarry (test a b))
  pure .next

/-- Divide the popped value by the accumulator. -/
def divide : Action Flow := do
  let c ← get
  let a ← pop
  let b ← accumulator
  if b = 0 then raise .divisionByZero
  else
    setAccumulator (Arithmetic.div c.cpu.width a b)
    pure .next

/-- Branch to a program offset if the carry is one, saving the address of
the next instruction. -/
def branch (target : Address) : Action Flow := do
  let c ← get
  if c.cpu.registers.carry = 1 then
    modifyCpu fun cpu => { cpu with calls := cpu.calls.push (cpu.registers.pc + 5) }
    modifyCpu (·.jump (c.memory.origin + target))
    pure .jump
  else pure .next

/-- Return to the innermost return address if the carry is not zero. -/
def returnFromCall : Action Flow := do
  let c ← get
  if c.cpu.registers.carry = 0 then pure .next
  else
    match c.cpu.calls.pop? with
    | some (address, calls) =>
      modifyCpu fun cpu => { cpu with calls }
      modifyCpu (·.jump address)
      pure .jump
    | none =>
      note (.warn "Call stack is empty, returning to address 0")
      modifyCpu (·.jump 0)
      pure .jump

def dropCall : Action Flow := do
  let c ← get
  match c.cpu.calls.pop? with
  | some (_, calls) => modifyCpu fun cpu => { cpu with calls }
  | none => note (.error "Call stack is empty")
  pure .next

namespace Instruction

def execute : Instruction → Action Flow
  | bge target => branch target
  | ldi value => do
    setAccumulator value
    pure .next
  | cmp => compare fun a b => a == b
  | grt => compare fun a b => a < b
  | les => compare fun a b => b < a
  | add => do
    let c ← get
    combine fun width a b => Arithmetic.add width a b c.cpu.registers.carry
  | sub => combine Arithmetic.sub
  | mul => do
    let c ← get
    combine fun width a b => Arithmetic.mul width a b c.cpu.registers.carry
  | div => divide
  | lshft => combine Arithmetic.shiftLeft
  | rshft => combine Arithmetic.shiftRight
  | push => do
    let value ← accumulator
    Action.push value
    pure .next
  | pop => do
    let value ← Action.pop
    setAccumulator value
    pure .next
  | ldr => do
    let c ← get
    let address ← Action.pop
    let value ← load c.cpu.width address.toAddress
    setAccumulator value
    pure .next
  | str => do
    let c ← get
    let address ← accumulator
    let value ← Action.pop
    store c.cpu.width address.toAddress value
    pure .next
  | clc => do
    modifyCpu (·.setCarry false)
    pure .next
  | sec => do
    modifyCpu (·.setCarry true)
    pure .next
  | flp => do
    modifyCpu fun cpu => cpu.setCarry (cpu.registers.carry == 0)
    pure .next
  | ret => returnFromCall
  | cpop => dropCall
  | hlt => do
    modify fun c => { c with running := false }
    pure .next
  | sys => do
    let index ← accumulator
    syscall index
    pure .next
  | iret => raise (.unimplemented .iret)

end Instruction

/-! ## Presenting -/

def Computer.clearBlit (c : Computer) : Computer :=
  { c with display := { c.display with blitRequested := false } }

def Computer.vram (c : Computer) : Block :=
  match c.memory.region? .vram with
  | some r => r.block
  | none => .zeros 0

/-- Offer a frame to the display if a blit is pending.  While the display
has not taken the last frame the request stays pending. -/
def present : Action Unit := fun c =>
  if c.display.blitRequested then
    match c.link with
    | none => ⟨.ok (), c.clearBlit, []⟩
    | some link =>
      match Frame.capture c.display c.vram with
      | .error e => ⟨.ok (), c.clearBlit, [.error ("Dropping frame: " ++ e.message)]⟩
      | .ok frame =>
        match link.offer frame with
        | .delivered link => ⟨.ok (), { c.clearBlit with link := some link }, []⟩
        | .busy => ⟨.ok (), c, []⟩
        | .disconnected =>
          ⟨.ok (), { c.clearBlit with link := none }, [.warn "Display disconnected"]⟩
  else ⟨.ok (), c, []⟩

/-! ## Stepping -/

/-- Fetch, decode and execute one instruction. -/
def step : Action Unit := do
  let i ← fetch
  match ← i.execute with
  | .next => modifyCpu fun cpu => cpu.jump (cpu.registers.pc + UInt32.ofNat i.size)
  | .jump => pure ()
  modify fun c => { c with cycles := c.cycles + 1 }
  present

namespace Computer

/-- One step of a machine. -/
def step (c : Computer) : Outcome Unit := StackRisc.step.run c

end Computer

end StackRisc
