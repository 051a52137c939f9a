import StackRisc.Computer.Action
import StackRisc.Proofs.Except
import StackRisc.Proofs.Memory.Access

/-!
# StackRisc.Proofs.Computer.Action

How actions end.  `x.Ends c r d` says that `x`, run on the machine `c`, comes
to `r`, a result or a fault, and leaves the machine `d`.  A sequence of
actions is taken apart into its steps (`ends_bind`), and for every elementary
action one lemma says how it ends.
-/

namespace StackRisc

/-! ## Operands -/

namespace Cpu

/-- The operand on top, zero if there is none. -/
def top (cpu : Cpu) : Word := (cpu.pop cpu.width).value.1

/-- The processor without the operand on top. -/
def dropTop (cpu : Cpu) : Cpu := (cpu.pop cpu.width).value.2

/-- The bytes of an operand are dropped if they are all there. -/
theorem dropTop_eq (cpu : Cpu) :
    cpu.dropTop = { cpu with
      stack := ⟨cpu.stack.bytes.drop
        (if cpu.width.bytes ≤ cpu.stack.bytes.length then cpu.width.bytes else 0)⟩ } := by
  obtain ⟨registers, ⟨bytes⟩, calls, width⟩ := cpu
  cases width with
  | byte =>
      rcases bytes with _ | ⟨b, rest⟩
      · rfl
      · simp [dropTop, pop, OperandStack.popByte, OperandStack.popByte?, Logged.quiet, Width.bytes]
  | word =>
      rcases bytes with _ | ⟨b3, _ | ⟨b2, _ | ⟨b1, _ | ⟨b0, rest⟩⟩⟩⟩
      iterate 4 rfl
      simp [dropTop, pop, OperandStack.popWord, OperandStack.popWord?, Logged.quiet, Width.bytes]

@[simp] theorem accumulator_dropTop (cpu : Cpu) : cpu.dropTop.accumulator = cpu.accumulator := by
  rw [dropTop_eq]
  rfl

end Cpu

/-- The machine without the operand on top. -/
def Computer.dropTop (c : Computer) : Computer := { c with cpu := c.cpu.dropTop }

@[simp] theorem Computer.cpu_dropTop (c : Computer) : c.dropTop.cpu = c.cpu.dropTop := rfl

@[simp] theorem Computer.memory_dropTop (c : Computer) : c.dropTop.memory = c.memory := rfl

namespace Action

/-- The action, run on a machine, comes to a result or a fault and leaves
another machine. -/
def Ends {α : Type} (x : Action α) (c : Computer) (r : Except Fault α) (d : Computer) : Prop :=
  (x.run c).result = r ∧ (x.run c).computer = d

variable {α β : Type} {x : Action α} {f : α → Action β} {c d : Computer}

/-! ## Sequences -/

/-- A value is given at once. -/
@[simp] theorem ends_pure {a : α} {r : Except Fault α} :
    (pure a : Action α).Ends c r d ↔ .ok a = r ∧ c = d := Iff.rfl

/-- A sequence ends as its second part does on what the first part left, or
with a fault of the first part. -/
@[simp] theorem ends_bind {r : Except Fault β} :
    (x >>= f).Ends c r d ↔
      (∃ a e, x.Ends c (.ok a) e ∧ (f a).Ends e r d) ∨
        ∃ fault, x.Ends c (.error fault) d ∧ .error fault = r := by
  unfold Ends
  rw [run_bind]
  cases h : (x.run c).result with
  | ok a => simp
  | error fault => simp [and_comm]

@[simp] theorem ends_ite {p : Prop} [Decidable p] {y : Action α} {r : Except Fault α} :
    (if p then x else y).Ends c r d ↔ if p then x.Ends c r d else y.Ends c r d := by
  split <;> rfl

/-! ## Elementary actions -/

section Elementary

variable {u : Except Fault Unit} {w : Except Fault Word} {address : Address} {v : Word}

/-- A look at the computer changes nothing. -/
@[simp] theorem ends_get {r : Except Fault Computer} : get.Ends c r d ↔ .ok c = r ∧ c = d := Iff.rfl

@[simp] theorem ends_modify {g : Computer → Computer} :
    (modify g).Ends c u d ↔ .ok () = u ∧ g c = d := Iff.rfl

@[simp] theorem ends_modifyCpu {g : Cpu → Cpu} :
    (modifyCpu g).Ends c u d ↔ .ok () = u ∧ { c with cpu := g c.cpu } = d := Iff.rfl

/-- An event changes nothing. -/
@[simp] theorem ends_note {e : Event} : (note e).Ends c u d ↔ .ok () = u ∧ c = d := Iff.rfl

/-- An exception leaves the computer as it is. -/
@[simp] theorem ends_raise {cause : Exception} {r : Except Fault α} :
    (raise cause : Action α).Ends c r d ↔ .error (.exception cause) = r ∧ c = d := Iff.rfl

@[simp] theorem ends_fail {fault : Fault} {r : Except Fault α} :
    (fail fault : Action α).Ends c r d ↔ .error fault = r ∧ c = d := Iff.rfl

/-- Popping gives the top of the stack and drops it. -/
@[simp] theorem ends_pop :
    pop.Ends c w d ↔ .ok c.cpu.top = w ∧ c.dropTop = d := Iff.rfl

@[simp] theorem ends_push :
    (push v).Ends c u d ↔ .ok () = u ∧ { c with cpu := c.cpu.push c.cpu.width v } = d := Iff.rfl

@[simp] theorem ends_accumulator :
    accumulator.Ends c w d ↔ .ok c.cpu.accumulator = w ∧ c = d := Iff.rfl

@[simp] theorem ends_setAccumulator :
    (setAccumulator v).Ends c u d ↔ .ok () = u ∧ { c with cpu := c.cpu.setAccumulator v } = d :=
  Iff.rfl

/-! ## Memory -/

/-- Reading gives what memory has and changes nothing. -/
@[simp] theorem ends_read8 {r : Except Fault Byte} :
    (read8 address).Ends c r d ↔ .ok (c.memory.read8 c.cpu address).value = r ∧ c = d := Iff.rfl

/-- A word that cannot be read raises an exception. -/
@[simp] theorem ends_read32_error {fault : Fault} :
    (read32 address).Ends c (.error fault) d ↔
      (∃ cause, (c.memory.read32 c.cpu address).value = .error cause ∧
        .exception (.memory cause) = fault) ∧ c = d :=
  and_congr_left' Except.mapError_eq_error_iff

/-- Only a word can be out of reach. -/
@[simp] theorem ends_load_error {width : Width} {fault : Fault} :
    (load width address).Ends c (.error fault) d ↔ width = .word ∧
      (∃ cause, (c.memory.read32 c.cpu address).value = .error cause ∧
        .exception (.memory cause) = fault) ∧ c = d := by
  cases width <;> simp [load]

/-- What was written stays, with what it changed of the processor. -/
@[simp] theorem ends_store_ok {width : Width} {a : Unit} :
    (store width address v).Ends c (.ok a) d ↔
      ∃ memory cpu, (c.memory.write width c.cpu address v).value = .ok (memory, cpu) ∧
        { c with memory, cpu } = d := by
  cases width with
  | byte | word =>
      simp only [Ends, run, store, write8, write32, written, Memory.write]
      split <;> simp [*]

/-- A refused write raises an exception. -/
@[simp] theorem ends_store_error {width : Width} {fault : Fault} :
    (store width address v).Ends c (.error fault) d ↔
      (∃ cause, (c.memory.write width c.cpu address v).value = .error cause ∧
        .exception (.memory cause) = fault) ∧ c = d := by
  cases width with
  | byte | word =>
      simp only [Ends, run, store, write8, write32, written, Memory.write]
      split <;> simp [*]

end Elementary

end Action

end StackRisc
