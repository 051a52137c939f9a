import StackRisc.Proofs.Computer.Faults
import StackRisc.Proofs.Computer.Surroundings

/-!
# StackRisc.Proofs.Computer.Control

What stops a machine, and what requests a blit.  Instructions other than `HLT`
and `SYS` change the processor and memory alone (`Action.internal_execute`),
and of the services one stops the machine and one requests a blit.  Hence

* `Computer.running_step_iff` — a machine stops by `HLT` or by the service that
  ends the program, and by nothing else;
* `Computer.controlled_attempt` — a blit is pending after an instruction if it
  was before, or if the instruction requested it.
-/

namespace StackRisc

/-! ## Actions on processor and memory -/

namespace Action

variable {α β : Type} {x : Action α} {f : α → Action β}

/-- The action changes the processor and memory alone. -/
def Internal (x : Action α) : Prop :=
  ∀ ⦃c r d⦄, x.Ends c r d → ∃ memory cpu, d = { c with memory, cpu }

/-- An action is internal if each of its runs changes memory and processor
alone. -/
theorem internal_of_run (h : ∀ c, ∃ memory cpu, (x.run c).computer = { c with memory, cpu }) :
    x.Internal := by
  rintro c r d ⟨-, rfl⟩
  exact h c

/-- Internal actions in a row are internal. -/
theorem Internal.bind (hx : x.Internal) (hf : ∀ a, (f a).Internal) : (x >>= f).Internal := by
  intro c r d h
  rcases ends_bind.mp h with ⟨a, e, hfirst, hsecond⟩ | ⟨fault, hfirst, -⟩
  · obtain ⟨_, _, rfl⟩ := hx hfirst
    obtain ⟨memory, cpu, rfl⟩ := hf a hsecond
    exact ⟨memory, cpu, rfl⟩
  · exact hx hfirst

theorem internal_store (width : Width) (address : Address) (v : Word) :
    (store width address v).Internal := by
  intro c r d h
  cases r with
  | ok =>
      obtain ⟨memory, cpu, -, rfl⟩ := ends_store_ok.mp h
      exact ⟨memory, cpu, rfl⟩
  | error fault =>
      obtain ⟨-, rfl⟩ := ends_store_error.mp h
      exact ⟨c.memory, c.cpu, rfl⟩

theorem internal_load (width : Width) (address : Address) : (load width address).Internal := by
  cases width <;> exact internal_of_run fun _ => ⟨_, _, rfl⟩

theorem internal_readText (address : Address) : (readText address).Internal := by
  intro c r d h
  obtain ⟨-, rfl⟩ := ends_readText.mp h
  exact ⟨c.memory, c.cpu, rfl⟩

theorem internal_readFile (path : String) : (readFile path).Internal := by
  refine .bind (internal_of_run fun _ => ⟨_, _, rfl⟩) fun c => ?_
  cases c.files.read path <;> exact internal_of_run fun _ => ⟨_, _, rfl⟩

theorem internal_copyChunk (path : String) (contents : List Byte) (count : Nat)
    (address : Address) : (copyChunk path contents count address).Internal := by
  induction contents generalizing count address with
  | nil => cases count <;> exact internal_of_run fun _ => ⟨_, _, rfl⟩
  | cons b rest ih =>
      cases count with
      | zero => exact internal_of_run fun _ => ⟨_, _, rfl⟩
      | succ count =>
          rw [copyChunk, write8_eq_store]
          exact .bind (internal_store _ _ _) fun _ => ih count (address + 1)

theorem internal_readFileChunk : readFileChunkService.Internal :=
  .bind (internal_of_run fun _ => ⟨_, _, rfl⟩) fun _ =>
    .bind (internal_readText _) fun _ =>
    .bind (internal_of_run fun _ => ⟨_, _, rfl⟩) fun _ =>
    .bind (internal_of_run fun _ => ⟨_, _, rfl⟩) fun _ =>
    .bind (internal_of_run fun _ => ⟨_, _, rfl⟩) fun _ =>
    .bind (internal_readFile _) fun _ =>
    .bind (internal_of_run fun _ => ⟨_, _, rfl⟩) fun _ =>
    .bind (internal_copyChunk _ _ _ _) fun _ => internal_of_run fun _ => ⟨_, _, rfl⟩

/-- Only `HLT` and the services reach beyond the processor and memory. -/
theorem internal_execute {i : Instruction} (hhlt : i ≠ .hlt) (hsys : i ≠ .sys) :
    i.execute.Internal := by
  have look : get.Internal := internal_of_run fun _ => ⟨_, _, rfl⟩
  cases i with
  | hlt | sys => contradiction
  | str =>
      exact look.bind fun _ => .bind (internal_of_run fun _ => ⟨_, _, rfl⟩) fun _ =>
        .bind (internal_of_run fun _ => ⟨_, _, rfl⟩) fun _ =>
        .bind (internal_store _ _ _) fun _ => internal_of_run fun _ => ⟨_, _, rfl⟩
  | ldr =>
      exact look.bind fun _ => .bind (internal_of_run fun _ => ⟨_, _, rfl⟩) fun _ =>
        .bind (internal_load _ _) fun _ => internal_of_run fun _ => ⟨_, _, rfl⟩
  | div =>
      refine look.bind fun _ => .bind (internal_of_run fun _ => ⟨_, _, rfl⟩) fun _ =>
        .bind (internal_of_run fun _ => ⟨_, _, rfl⟩) fun b => ?_
      split <;> exact internal_of_run fun _ => ⟨_, _, rfl⟩
  | bge target =>
      refine look.bind fun c => ?_
      split <;> exact internal_of_run fun _ => ⟨_, _, rfl⟩
  | ret =>
      refine look.bind fun c => ?_
      split
      · exact internal_of_run fun _ => ⟨_, _, rfl⟩
      · cases c.cpu.calls.pop? <;> exact internal_of_run fun _ => ⟨_, _, rfl⟩
  | cpop =>
      refine look.bind fun c => ?_
      cases c.cpu.calls.pop? <;> exact internal_of_run fun _ => ⟨_, _, rfl⟩
  | ldi | cmp | grt | les | add | sub | mul | lshft | rshft | push | pop | clc | sec | flp
    | iret => exact internal_of_run fun _ => ⟨_, _, rfl⟩

/-! ## Actions that neither stop the machine nor ask for a blit -/

/-- The action leaves a running machine running and a pending blit pending,
and does neither the one nor the other to a machine that is not. -/
def Quiet (x : Action α) : Prop :=
  ∀ ⦃c r d⦄, x.Ends c r d →
    d.running = c.running ∧ d.display.blitRequested = c.display.blitRequested

/-- An action is quiet if each of its runs leaves the two flags. -/
theorem quiet_of_run (h : ∀ c, (x.run c).computer.running = c.running ∧
    (x.run c).computer.display.blitRequested = c.display.blitRequested) : x.Quiet := by
  rintro c r d ⟨-, rfl⟩
  exact h c

/-- An internal action does not touch the flags of the machine. -/
theorem Internal.quiet (h : x.Internal) : x.Quiet := by
  intro c r d hends
  obtain ⟨memory, cpu, rfl⟩ := h hends
  exact ⟨rfl, rfl⟩

/-- Quiet actions in a row are quiet. -/
theorem Quiet.bind (hx : x.Quiet) (hf : ∀ a, (f a).Quiet) : (x >>= f).Quiet := by
  intro c r d h
  rcases ends_bind.mp h with ⟨a, e, hfirst, hsecond⟩ | ⟨fault, hfirst, -⟩
  · obtain ⟨hrunning, hpending⟩ := hx hfirst
    obtain ⟨hrunning', hpending'⟩ := hf a hsecond
    exact ⟨hrunning'.trans hrunning, hpending'.trans hpending⟩
  · exact hx hfirst

theorem quiet_pop : pop.Quiet := quiet_of_run fun _ => ⟨rfl, rfl⟩

theorem quiet_popDimension : popDimension.Quiet := by
  refine quiet_pop.bind fun value => ?_
  split <;> exact quiet_of_run fun _ => ⟨rfl, rfl⟩

/-- One service stops the machine, and one asks for a blit. -/
theorem quiet_perform {service : Syscall} (hexit : service ≠ .exit) (hblit : service ≠ .blit) :
    service.perform.Quiet := by
  cases service with
  | exit | blit => contradiction
  | readFileChunk => exact internal_readFileChunk.quiet
  | print =>
      exact quiet_pop.bind fun _ => (internal_readText _).quiet.bind fun _ =>
        quiet_of_run fun _ => ⟨rfl, rfl⟩
  | displayMode =>
      refine quiet_pop.bind fun value => ?_
      cases DisplayMode.ofWord? value <;> exact quiet_of_run fun _ => ⟨rfl, rfl⟩
  | displayWidth | displayHeight =>
      exact quiet_popDimension.bind fun _ => quiet_of_run fun _ => ⟨rfl, rfl⟩
  | assert | initialized | toggleWidth => exact quiet_of_run fun _ => ⟨rfl, rfl⟩

end Action

open StackRisc.Action

namespace Computer

variable {c d : Computer}

/-! ## Stopping and asking -/

/-- The instruction at the program counter calls a service. -/
def Calls (c : Computer) (service : Syscall) : Prop :=
  c.opcode? = some .sys ∧ c.syscalls.get? c.cpu.accumulator = some service

instance (c : Computer) (service : Syscall) : Decidable (c.Calls service) :=
  inferInstanceAs (Decidable (_ ∧ _))

/-- The instruction at the program counter ends the program. -/
def Stops (c : Computer) : Prop := c.opcode? = some .hlt ∨ c.Calls .exit

/-- What becomes of a machine that stops under one condition and is asked for a
blit under another. -/
structure Controlled (stop ask : Prop) (c d : Computer) : Prop where
  running : d.running = true ↔ c.running = true ∧ ¬ stop
  pending : d.display.blitRequested = true ↔ c.display.blitRequested = true ∨ ask

/-- A quiet action neither stops the machine nor asks for a picture. -/
theorem controlled_of_quiet {α : Type} {x : Action α} {r : Except Fault α} {stop ask : Prop}
    (hx : x.Quiet) (hends : x.Ends c r d) (hstop : ¬ stop) (hask : ¬ ask) :
    Controlled stop ask c d := by
  obtain ⟨hrunning, hpending⟩ := hx hends
  exact ⟨by simp [hrunning, hstop], by simp [hpending, hask]⟩

/-- Of the services, one stops the machine and one asks for a picture. -/
theorem controlled_perform {service : Syscall} {r : Except Fault Unit}
    (h : service.perform.Ends c r d) :
    Controlled (service = .exit) (service = .blit) c d := by
  by_cases hexit : service = .exit
  · subst hexit
    obtain ⟨-, rfl⟩ := h
    exact ⟨iff_of_false nofun fun h => h.2 rfl, (or_iff_left nofun).symm⟩
  by_cases hblit : service = .blit
  · subst hblit
    obtain ⟨-, rfl⟩ := h
    exact ⟨(and_iff_left hexit).symm, iff_of_true rfl (.inr rfl)⟩
  exact controlled_of_quiet (quiet_perform hexit hblit) h hexit hblit

/-- So a system call does the one or the other only by these services. -/
theorem controlled_syscall {index : Word} {r : Except Fault Unit}
    (h : (syscall index).Ends c r d) :
    Controlled (c.syscalls.get? index = some .exit) (c.syscalls.get? index = some .blit) c d := by
  cases hservice : c.syscalls.get? index with
  | none =>
      obtain ⟨-, rfl⟩ : .error (.exception (.unknownSyscall index)) = r ∧ c = d := by
        simpa [syscall, hservice] using h
      exact ⟨by simp, by simp⟩
  | some service =>
      have hperform : service.perform.Ends c r d := by simpa [syscall, hservice] using h
      simpa using controlled_perform hperform

/-- And so does an instruction, which may also stop the machine itself. -/
theorem controlled_execute {i : Instruction} {r : Except Fault Flow} (h : i.execute.Ends c r d) :
    Controlled
      (i = .hlt ∨ i = .sys ∧ c.syscalls.get? c.cpu.accumulator = some .exit)
      (i = .sys ∧ c.syscalls.get? c.cpu.accumulator = some .blit) c d := by
  by_cases hhlt : i = .hlt
  · subst hhlt
    obtain ⟨-, rfl⟩ := h
    exact ⟨iff_of_false nofun fun h => h.2 (.inl rfl), (or_iff_left nofun).symm⟩
  by_cases hsys : i = .sys
  · subst hsys
    obtain ⟨r', hcall⟩ : ∃ r', (syscall c.cpu.accumulator).Ends c r' d := by
      rcases ends_bind.mp h with ⟨index, e, hread, hrest⟩ | ⟨fault, hread, -⟩
      · obtain ⟨hindex, rfl⟩ := ends_accumulator.mp hread
        obtain rfl := Except.ok.inj hindex
        rcases ends_bind.mp hrest with ⟨_, e, hcall, hdone⟩ | ⟨fault, hcall, -⟩
        · obtain ⟨-, rfl⟩ := ends_pure.mp hdone
          exact ⟨_, hcall⟩
        · exact ⟨_, hcall⟩
      · exact absurd hread.1 nofun
    simpa using controlled_syscall hcall
  exact controlled_of_quiet (internal_execute hhlt hsys).quiet h (by simp [hhlt, hsys])
    (by simp [hsys])

/-- A machine stops by an instruction that ends the program, and by nothing
else; a blit is pending if it was before, or if the instruction requests it. -/
theorem controlled_attempt {r : Except Fault (Instruction × Flow)}
    (h : Action.attempt.Ends c r d) : Controlled c.Stops (c.Calls .blit) c d := by
  rcases ends_bind.mp h with ⟨i, e, hfetch, hrest⟩ | ⟨fault, hfetch, -⟩
  · obtain ⟨hi, rfl⟩ := ends_fetch.mp hfetch
    have hop : c.opcode? = some i.opcode := opcode_of_instructionAt hi
    have hhlt : i.opcode = .hlt ↔ i = .hlt := by cases i <;> simp [Instruction.opcode]
    have hsys : i.opcode = .sys ↔ i = .sys := by cases i <;> simp [Instruction.opcode]
    obtain ⟨r', hexecute⟩ : ∃ r', i.execute.Ends c r' d := by
      rcases ends_bind.mp hrest with ⟨flow, e, hexecute, -, rfl⟩ | ⟨fault, hexecute, -⟩
      · exact ⟨_, hexecute⟩
      · exact ⟨_, hexecute⟩
    simpa [Stops, Calls, hop, hhlt, hsys] using controlled_execute hexecute
  · obtain ⟨hfails, rfl⟩ := ends_fetch.mp hfetch
    have absent {i : Instruction} (hoperand : i.opcode.hasOperand = false) :
        c.opcode? ≠ some i.opcode := by
      intro hop
      rw [(instructionAt_eq_ok_iff hoperand).mpr hop] at hfails
      contradiction
    have hhlt : c.opcode? ≠ some .hlt := absent (i := .hlt) rfl
    have hsys : c.opcode? ≠ some .sys := absent (i := .sys) rfl
    exact ⟨by simp [Stops, Calls, hhlt, hsys], by simp [Calls, hsys]⟩

/-- Only the service that reads files can fault. -/
theorem step_ok_of_calls {service : Syscall} (h : c.Calls service)
    (hservice : service ≠ .readFileChunk) : c.step.result = .ok () := by
  cases hr : c.step.result with
  | ok => rfl
  | error fault =>
      exfalso
      rcases exists_step_error_iff.mp ⟨fault, hr⟩ with hfetch | hfaults
      · rcases instructionAt_eq_error_iff.mp hfetch with hcode | ⟨op, hop, hoperand, -⟩
        · rw [← Opcode.ofByte?_eq_none_iff] at hcode
          exact absurd (h.1.symm.trans hcode) nofun
        · obtain rfl := Option.some.inj (h.1.symm.trans hop)
          contradiction
      · obtain ⟨op, hop, hrefuses⟩ := exists_instructionAt_faults_iff.mp hfaults
        obtain rfl := Option.some.inj (h.1.symm.trans hop)
        simp [Refuses, h.2, hservice] at hrefuses

/-- Of the machines that run, those stop that execute `HLT` or call the service
that ends the program. -/
theorem running_step_iff (c : Computer) :
    c.step.computer.running = true ↔ c.running = true ∧ ¬ c.Stops := by
  rcases c.step_cases with ⟨i, flow, e, hattempt, -, hshown⟩ | ⟨fault, hattempt, -⟩
  · rw [← hshown.running_eq]
    exact (controlled_attempt hattempt).running
  · exact (controlled_attempt hattempt).running

end Computer

end StackRisc
