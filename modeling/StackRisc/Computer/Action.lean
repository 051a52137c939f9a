import StackRisc.Computer.State

/-!
# StackRisc.Computer.Action

Computations on the machine.  An action takes a machine and leaves a result
or a fault, the machine as it is then, and the events reported on the way.
A fault keeps what was done before it.
-/

namespace StackRisc

/-- What an action leaves behind. -/
structure Outcome (α : Type) where
  result : Except Fault α
  computer : Computer
  log : List Event

/-- A computation on the machine. -/
def Action (α : Type) : Type := Computer → Outcome α

namespace Action

def run {α : Type} (x : Action α) (c : Computer) : Outcome α := x c

/-- Go on after an action, unless it faulted. -/
def andThen {α β : Type} (x : Action α) (f : α → Action β) : Action β := fun c =>
  let first := x c
  match first.result with
  | .ok a =>
    let second := f a first.computer
    ⟨second.result, second.computer, first.log ++ second.log⟩
  | .error fault => ⟨.error fault, first.computer, first.log⟩

instance : Monad Action where
  pure a := fun c => ⟨.ok a, c, []⟩
  bind := andThen

/-- Two actions run one after the other, unless the first one fails. -/
theorem run_bind {α β : Type} (x : Action α) (f : α → Action β) (c : Computer) :
    (x >>= f).run c =
      match (x.run c).result with
      | .ok a =>
        ⟨((f a).run (x.run c).computer).result, ((f a).run (x.run c).computer).computer,
          (x.run c).log ++ ((f a).run (x.run c).computer).log⟩
      | .error fault => ⟨.error fault, (x.run c).computer, (x.run c).log⟩ := rfl

/-! ## Elementary actions -/

def get : Action Computer := fun c => ⟨.ok c, c, []⟩

def modify (f : Computer → Computer) : Action Unit := fun c => ⟨.ok (), f c, []⟩

def modifyCpu (f : Cpu → Cpu) : Action Unit := modify fun c => { c with cpu := f c.cpu }

def note (e : Event) : Action Unit := fun c => ⟨.ok (), c, [e]⟩

def raise {α : Type} (cause : Exception) : Action α := fun c => ⟨.error (.exception cause), c, []⟩

def fail {α : Type} (fault : Fault) : Action α := fun c => ⟨.error fault, c, []⟩

def pop : Action Word := fun c =>
  let popped := c.cpu.pop c.cpu.width
  ⟨.ok popped.value.1, { c with cpu := popped.value.2 }, popped.log⟩

def push (v : Word) : Action Unit := modifyCpu fun cpu => cpu.push cpu.width v

def accumulator : Action Word := fun c => ⟨.ok c.cpu.accumulator, c, []⟩

def setAccumulator (v : Word) : Action Unit := modifyCpu (·.setAccumulator v)

/-! ## Memory -/

def read8 (address : Address) : Action Byte := fun c =>
  let read := c.memory.read8 c.cpu address
  ⟨.ok read.value, c, read.log⟩

def read32 (address : Address) : Action Word := fun c =>
  let read := c.memory.read32 c.cpu address
  ⟨read.value.mapError fun fault => .exception (.memory fault), c, read.log⟩

/-- Put the machine in the state that a write left. -/
def written (w : Logged (Except MemoryFault (Memory × Cpu))) : Action Unit := fun c =>
  match w.value with
  | .ok (memory, cpu) => ⟨.ok (), { c with memory, cpu }, w.log⟩
  | .error fault => ⟨.error (.exception (.memory fault)), c, w.log⟩

def write8 (address : Address) (v : Byte) : Action Unit := fun c =>
  written (c.memory.write8 c.cpu address v) c

def write32 (address : Address) (v : Word) : Action Unit := fun c =>
  written (c.memory.write32 c.cpu address v) c

/-- Read a value of a width from memory. -/
def load (width : Width) (address : Address) : Action Word :=
  match width with
  | .byte => do
    let b ← read8 address
    pure (Word.ofByte b)
  | .word => read32 address

/-- Write a value of a width to memory; of a byte the low one is kept. -/
def store (width : Width) (address : Address) (v : Word) : Action Unit :=
  match width with
  | .byte => write8 address v.lowByte
  | .word => write32 address v

/-- Read some characters, one byte each. -/
def readChars : (count : Nat) → (address : Address) → Action (List Char)
  | 0, _ => pure []
  | count + 1, address => do
    let b ← read8 address
    let rest ← readChars count (address + 1)
    pure (Char.ofNat b.toNat :: rest)

/-- Read a text: a byte for its length, then as many characters. -/
def readText (address : Address) : Action String := do
  let length ← read8 address
  let cs ← readChars length.toNat (address + 1)
  pure (String.ofList cs)

end Action

end StackRisc
