import StackRisc.Proofs.Computer.Relocation

/-!
# StackRisc.Proofs.Computer.Processor

What a program changes of its processor.  Apart from the branches and the
returns, which change the call stack, and the service that toggles the width,
all that instructions and services do to a processor is to pop and push
operands, to set the accumulator, and what the system page lets them do.  A
relation that these keep (`Cpu.Stable`) holds between the processors before
and after, however the instruction ends; where nothing is stored and no carry
is set, the first two will do (`Cpu.OperandStable`):

* `Action.keepsCpu_performOperands`, `Action.keepsCpu_executeOperands` — the
  services and instructions that only move operands;
* `Action.keepsCpu_perform`, `Action.keepsCpu_execute` — services and
  instructions;
* `Action.ends_branch`, `Action.ends_returnFromCall`, `Action.ends_dropCall` —
  the exceptions, one by one;
* `Computer.stepEnds`, `Computer.step_cpu_cases` — the step around the
  instruction.
-/

namespace StackRisc

/-! ## Stable relations -/

/-- A relation between processors before and after that is kept by moving
operands and by setting the accumulator. -/
structure Cpu.OperandStable (R : Cpu → Cpu → Prop) : Prop where
  refl (cpu) : R cpu cpu
  trans {cpu cpu' cpu''} : R cpu cpu' → R cpu' cpu'' → R cpu cpu''
  dropTop (cpu) : R cpu cpu.dropTop
  push (cpu : Cpu) (v) : R cpu (cpu.push cpu.width v)
  setAccumulator (cpu : Cpu) (v) : R cpu (cpu.setAccumulator v)

/-- A relation that is also kept through the system page. -/
structure Cpu.Stable (R : Cpu → Cpu → Prop) : Prop extends Cpu.OperandStable R where
  page {cpu cpu' : Cpu} : cpu.SameOffPage cpu' → R cpu cpu'

theorem Cpu.sameOffPage_jump (cpu : Cpu) (a : Address) : cpu.SameOffPage (cpu.jump a) := rfl

theorem Cpu.sameOffPage_setCarry (cpu : Cpu) (on : Bool) : cpu.SameOffPage (cpu.setCarry on) := rfl

/-- The processor without the innermost return address. -/
def Cpu.leave (cpu : Cpu) : Cpu := cpu.withCalls ⟨cpu.calls.frames.tail⟩

theorem Cpu.leave_of_nil {cpu : Cpu} (h : cpu.calls.frames = []) : cpu.leave = cpu := by
  have hcalls : (⟨cpu.calls.frames.tail⟩ : CallStack) = cpu.calls := by
    rw [h, List.tail_nil, ← h]
  rw [leave, withCalls, hcalls]

namespace Action

variable {α β : Type} {R : Cpu → Cpu → Prop} {x : Action α} {f : α → Action β}

/-- The processors before and after the action are related, however it ends. -/
def KeepsCpu (R : Cpu → Cpu → Prop) (x : Action α) : Prop :=
  ∀ ⦃c r d⦄, x.Ends c r d → R c.cpu d.cpu

/-- An action keeps a relation of processors if each of its runs does. -/
theorem keepsCpu_of_run (h : ∀ c, R c.cpu (x.run c).computer.cpu) : x.KeepsCpu R := by
  rintro c r d ⟨-, rfl⟩
  exact h c

section OperandStable

variable (hR : Cpu.OperandStable R)
include hR

/-- Actions that keep a relation follow one another. -/
theorem KeepsCpu.bind (hx : x.KeepsCpu R) (hf : ∀ a, (f a).KeepsCpu R) :
    (x >>= f).KeepsCpu R := by
  intro c r d h
  rcases ends_bind.mp h with ⟨a, e, hfirst, hsecond⟩ | ⟨fault, hfirst, -⟩
  · exact hR.trans (hx hfirst) (hf a hsecond)
  · exact hx hfirst

/-! ## Moving operands -/

/-- An action that leaves the processor as it is keeps every stable relation. -/
theorem keepsCpu_of_cpu_eq (h : ∀ c, (x.run c).computer.cpu = c.cpu) : x.KeepsCpu R :=
  keepsCpu_of_run fun c => by
    rw [h c]
    exact hR.refl c.cpu

theorem keepsCpu_get : get.KeepsCpu R := keepsCpu_of_cpu_eq hR fun _ => rfl

theorem keepsCpu_pure (a : α) : (pure a : Action α).KeepsCpu R :=
  keepsCpu_of_cpu_eq hR fun _ => rfl

theorem keepsCpu_note (e : Event) : (note e).KeepsCpu R := keepsCpu_of_cpu_eq hR fun _ => rfl

theorem keepsCpu_pop : pop.KeepsCpu R := keepsCpu_of_run fun c => hR.dropTop c.cpu

theorem keepsCpu_push (v : Word) : (push v).KeepsCpu R := keepsCpu_of_run fun c => hR.push c.cpu v

theorem keepsCpu_accumulator : accumulator.KeepsCpu R := keepsCpu_of_cpu_eq hR fun _ => rfl

theorem keepsCpu_setAccumulator (v : Word) : (setAccumulator v).KeepsCpu R :=
  keepsCpu_of_run fun c => hR.setAccumulator c.cpu v

/-- Loads do not touch the processor. -/
theorem keepsCpu_load (width : Width) (address : Address) : (load width address).KeepsCpu R := by
  cases width <;> exact keepsCpu_of_cpu_eq hR fun _ => rfl

theorem keepsCpu_readText (address : Address) : (readText address).KeepsCpu R := by
  intro c r d h
  obtain ⟨-, rfl⟩ := ends_readText.mp h
  exact hR.refl c.cpu

theorem keepsCpu_readFile (path : String) : (readFile path).KeepsCpu R := by
  refine .bind hR (keepsCpu_get hR) fun c => ?_
  cases c.files.read path <;> exact keepsCpu_of_cpu_eq hR fun _ => rfl

theorem keepsCpu_popDimension : popDimension.KeepsCpu R := by
  refine .bind hR (keepsCpu_pop hR) fun value => ?_
  split <;> exact keepsCpu_of_cpu_eq hR fun _ => rfl

/-- Only two services do more: the one that toggles the width and the one that
stores a chunk of a file. -/
theorem keepsCpu_performOperands {service : Syscall} (htoggle : service ≠ .toggleWidth)
    (hchunk : service ≠ .readFileChunk) : service.perform.KeepsCpu R := by
  cases service with
  | toggleWidth | readFileChunk => contradiction
  | exit => exact .bind hR (keepsCpu_pop hR) fun _ => keepsCpu_of_cpu_eq hR fun _ => rfl
  | print =>
      exact .bind hR (keepsCpu_pop hR) fun _ => .bind hR (keepsCpu_readText hR _) fun _ =>
        keepsCpu_of_cpu_eq hR fun _ => rfl
  | assert => exact .bind hR (keepsCpu_pop hR) fun _ => keepsCpu_of_cpu_eq hR fun _ => rfl
  | displayMode =>
      refine .bind hR (keepsCpu_pop hR) fun value => ?_
      cases DisplayMode.ofWord? value <;> exact keepsCpu_of_cpu_eq hR fun _ => rfl
  | displayWidth | displayHeight =>
      exact .bind hR (keepsCpu_popDimension hR) fun _ => keepsCpu_of_cpu_eq hR fun _ => rfl
  | blit | initialized => exact keepsCpu_of_cpu_eq hR fun _ => rfl

theorem keepsCpu_combine (op : Width → (a b : Word) → Word) : (combine op).KeepsCpu R :=
  .bind hR (keepsCpu_get hR) fun _ => .bind hR (keepsCpu_pop hR) fun _ =>
    .bind hR (keepsCpu_accumulator hR) fun _ => .bind hR (keepsCpu_setAccumulator hR _) fun _ =>
    keepsCpu_pure hR _

theorem keepsCpu_divide : divide.KeepsCpu R := by
  refine .bind hR (keepsCpu_get hR) fun c => .bind hR (keepsCpu_pop hR) fun a =>
    .bind hR (keepsCpu_accumulator hR) fun b => ?_
  split
  · exact keepsCpu_of_cpu_eq hR fun _ => rfl
  · exact .bind hR (keepsCpu_setAccumulator hR _) fun _ => keepsCpu_pure hR _

/-- The instructions that neither store, nor set the carry, nor change the call
stack, apart from `SYS`. -/
theorem keepsCpu_executeOperands {i : Instruction}
    (h : i.opcode ∉ [Opcode.bge, .ret, .cpop, .sys, .str, .cmp, .grt, .les, .clc, .sec, .flp]) :
    i.execute.KeepsCpu R := by
  cases i with
  | bge | ret | cpop | sys | str | cmp | grt | les | clc | sec | flp =>
      simp [Instruction.opcode] at h
  | ldi value =>
      exact .bind hR (keepsCpu_setAccumulator hR value) fun _ => keepsCpu_pure hR _
  | add | mul => exact .bind hR (keepsCpu_get hR) fun _ => keepsCpu_combine hR _
  | sub | lshft | rshft => exact keepsCpu_combine hR _
  | div => exact keepsCpu_divide hR
  | push =>
      exact .bind hR (keepsCpu_accumulator hR) fun _ => .bind hR (keepsCpu_push hR _) fun _ =>
        keepsCpu_pure hR _
  | pop =>
      exact .bind hR (keepsCpu_pop hR) fun _ => .bind hR (keepsCpu_setAccumulator hR _) fun _ =>
        keepsCpu_pure hR _
  | ldr =>
      exact .bind hR (keepsCpu_get hR) fun _ => .bind hR (keepsCpu_pop hR) fun _ =>
        .bind hR (keepsCpu_load hR _ _) fun _ => .bind hR (keepsCpu_setAccumulator hR _) fun _ =>
        keepsCpu_pure hR _
  | hlt | iret => exact keepsCpu_of_cpu_eq hR fun _ => rfl

end OperandStable

section Stable

variable (hR : Cpu.Stable R)
include hR

/-! ## Stores and the carry -/

theorem keepsCpu_setCarry (test : Cpu → Bool) :
    (modifyCpu fun cpu => cpu.setCarry (test cpu)).KeepsCpu R :=
  keepsCpu_of_run fun c => hR.page (c.cpu.sameOffPage_setCarry (test c.cpu))

/-- A store touches the processor only in the system page. -/
theorem keepsCpu_store (width : Width) (address : Address) (v : Word) :
    (store width address v).KeepsCpu R := by
  intro c r d h
  cases r with
  | ok =>
      obtain ⟨memory, cpu, hwrite, rfl⟩ := ends_store_ok.mp h
      exact hR.page (Memory.sameMap_of_write hwrite).2
  | error fault =>
      obtain ⟨-, rfl⟩ := ends_store_error.mp h
      exact hR.refl c.cpu

/-- So does copying a chunk. -/
theorem keepsCpu_copyChunk (path : String) (contents : List Byte) (count : Nat)
    (address : Address) : (copyChunk path contents count address).KeepsCpu R := by
  have hmoves := hR.toOperandStable
  induction contents generalizing count address with
  | nil => cases count <;> exact keepsCpu_of_cpu_eq hmoves fun _ => rfl
  | cons b rest ih =>
      cases count with
      | zero => exact keepsCpu_pure hmoves ()
      | succ count =>
          rw [copyChunk, write8_eq_store]
          exact .bind hmoves (keepsCpu_store hR _ _ _) fun _ => ih count (address + 1)

theorem keepsCpu_readFileChunk : readFileChunkService.KeepsCpu R := by
  have hmoves := hR.toOperandStable
  exact .bind hmoves (keepsCpu_pop hmoves) fun _ => .bind hmoves (keepsCpu_readText hmoves _)
    fun _ => .bind hmoves (keepsCpu_pop hmoves) fun _ => .bind hmoves (keepsCpu_pop hmoves)
    fun _ => .bind hmoves (keepsCpu_pop hmoves) fun _ => .bind hmoves (keepsCpu_readFile hmoves _)
    fun _ => .bind hmoves (keepsCpu_note hmoves _) fun _ =>
    .bind hmoves (keepsCpu_copyChunk hR _ _ _ _) fun _ => keepsCpu_push hmoves _

theorem keepsCpu_compare (test : (a b : Word) → Bool) : (compare test).KeepsCpu R := by
  have hmoves := hR.toOperandStable
  exact .bind hmoves (keepsCpu_pop hmoves) fun _ => .bind hmoves (keepsCpu_accumulator hmoves)
    fun _ => .bind hmoves (keepsCpu_setCarry hR _) fun _ => keepsCpu_pure hmoves _

/-- Only one service reaches further: the one that toggles the width. -/
theorem keepsCpu_perform {service : Syscall} (htoggle : service ≠ .toggleWidth) :
    service.perform.KeepsCpu R := by
  by_cases hchunk : service = .readFileChunk
  · subst hchunk
    exact keepsCpu_readFileChunk hR
  · exact keepsCpu_performOperands hR.toOperandStable htoggle hchunk

/-- The instructions that leave the call stack alone, apart from `SYS`. -/
theorem keepsCpu_execute {i : Instruction} (h : i.opcode ∉ [Opcode.bge, .ret, .cpop, .sys]) :
    i.execute.KeepsCpu R := by
  have hmoves := hR.toOperandStable
  cases i with
  | bge | ret | cpop | sys => simp [Instruction.opcode] at h
  | str =>
      exact .bind hmoves (keepsCpu_get hmoves) fun _ => .bind hmoves (keepsCpu_accumulator hmoves)
        fun _ => .bind hmoves (keepsCpu_pop hmoves) fun _ =>
        .bind hmoves (keepsCpu_store hR _ _ _) fun _ => keepsCpu_pure hmoves _
  | cmp | grt | les => exact keepsCpu_compare hR _
  | clc | sec | flp =>
      exact .bind hmoves (keepsCpu_setCarry hR _) fun _ => keepsCpu_pure hmoves _
  | ldi | add | push | pop | ldr | hlt | sub | mul | div | lshft | rshft | iret =>
      exact keepsCpu_executeOperands hmoves (by simp [Instruction.opcode])

end Stable

/-! ## The call stack -/

variable {c d : Computer} {r : Except Fault Flow}

/-- The instruction that calls a service leaves what the service leaves. -/
theorem ends_sys_cases (h : Instruction.sys.execute.Ends c r d) :
    (c.syscalls.get? c.cpu.accumulator = none ∧ c = d) ∨
    ∃ service r', c.syscalls.get? c.cpu.accumulator = some service ∧
      service.perform.Ends c r' d := by
  obtain ⟨r', hcall⟩ : ∃ r', (syscall c.cpu.accumulator).Ends c r' d := by
    cases r with
    | ok flow =>
        obtain ⟨⟨a, hcall⟩, -⟩ : (∃ a, (syscall c.cpu.accumulator).Ends c (.ok a) d) ∧
            Flow.next = flow := by
          simpa [Instruction.execute] using h
        exact ⟨_, hcall⟩
    | error fault => exact ⟨_, ends_sys_error.mp h⟩
  cases hservice : c.syscalls.get? c.cpu.accumulator with
  | none =>
      obtain ⟨-, hsame⟩ : .error (.exception (.unknownSyscall c.cpu.accumulator)) = r' ∧ c = d := by
        simpa [syscall, hservice] using hcall
      exact .inl ⟨rfl, hsame⟩
  | some service => exact .inr ⟨service, r', rfl, by simpa [syscall, hservice] using hcall⟩

/-- A branch that is taken enters a call, any other goes on. -/
theorem ends_branch {target : Address} :
    (branch target).Ends c r d ↔
      if c.cpu.registers.carry = 1 then
        .ok .jump = r ∧ { c with cpu := (c.cpu.call 5).jump (c.memory.origin + target) } = d
      else .ok .next = r ∧ c = d := by
  by_cases h : c.cpu.registers.carry = 1 <;> simp [branch, Cpu.call, Cpu.withCalls, h]

/-- A return that is taken leaves the innermost call, any other goes on. -/
theorem ends_returnFromCall :
    returnFromCall.Ends c r d ↔
      if c.cpu.registers.carry = 0 then .ok .next = r ∧ c = d
      else .ok .jump = r ∧ { c with cpu := c.cpu.leave.jump (c.cpu.calls.frames.headD 0) } = d := by
  by_cases h : c.cpu.registers.carry = 0
  · simp [returnFromCall, h]
  · cases hframes : c.cpu.calls.frames with
    | nil => simp [returnFromCall, h, CallStack.pop?, hframes, Cpu.leave_of_nil hframes]
    | cons a rest =>
        simp [returnFromCall, h, CallStack.pop?, hframes, Cpu.leave, Cpu.withCalls]

/-- The innermost call is forgotten, if there is one. -/
theorem ends_dropCall :
    dropCall.Ends c r d ↔ .ok .next = r ∧ { c with cpu := c.cpu.leave } = d := by
  cases hframes : c.cpu.calls.frames with
  | nil => simp [dropCall, CallStack.pop?, hframes, Cpu.leave_of_nil hframes]
  | cons a rest => simp [dropCall, CallStack.pop?, hframes, Cpu.leave, Cpu.withCalls]

end Action

/-! ## Steps -/

namespace Computer

variable {c d : Computer}

theorem SameOffDisplay.cpu_eq (h : c.SameOffDisplay d) : c.cpu = d.cpu :=
  show c.offDisplay.cpu = d.offDisplay.cpu from congrArg cpu h

theorem SameOffDisplay.memory_eq (h : c.SameOffDisplay d) : c.memory = d.memory :=
  show c.offDisplay.memory = d.offDisplay.memory from congrArg memory h

/-- How a step goes. -/
inductive StepEnds (c : Computer) : Except Fault Unit → Computer → Prop
  /-- There is no instruction. -/
  | undecoded {fault : Fault} (hfetch : (c.instructionAt c.cpu.registers.pc).value = .error fault) :
      StepEnds c (.error fault) c
  /-- The instruction faults. -/
  | faulted {i : Instruction} {fault : Fault} {d : Computer}
      (hfetch : (c.instructionAt c.cpu.registers.pc).value = .ok i)
      (hexecute : i.execute.Ends c (.error fault) d) : StepEnds c (.error fault) d
  /-- The instruction is executed and counted. -/
  | executed {i : Instruction} {flow : Flow} {e d : Computer}
      (hfetch : (c.instructionAt c.cpu.registers.pc).value = .ok i)
      (hexecute : i.execute.Ends c (.ok flow) e) (hshown : (e.counted i flow).SameOffDisplay d) :
      StepEnds c (.ok ()) d

/-- Every step ends in one of these ways. -/
theorem stepEnds (c : Computer) : c.StepEnds c.step.result c.step.computer := by
  rcases c.step_cases with ⟨i, flow, e, hattempt, hok, hshown⟩ | ⟨fault, hattempt, herror⟩
  · rw [hok]
    obtain ⟨hfetch, hexecute⟩ : (c.instructionAt c.cpu.registers.pc).value = .ok i ∧
        i.execute.Ends c (.ok flow) e := by
      simpa [Action.attempt, Action.ends_fetch] using hattempt
    exact .executed hfetch hexecute hshown
  · rw [herror]
    simp only [Action.attempt, Action.ends_bind, Action.ends_fetch, Action.ends_pure] at hattempt
    rcases hattempt with ⟨i, e, ⟨hfetch, rfl⟩, hrest⟩ | ⟨fault', ⟨hfetch, hsame⟩, hfault⟩
    · rcases hrest with ⟨flow, e, -, hne, -⟩ | ⟨fault', hexecute, hfault⟩
      · contradiction
      · obtain rfl := Except.error.inj hfault
        exact .faulted hfetch hexecute
    · obtain rfl := Except.error.inj hfault
      rw [← hsame]
      exact .undecoded hfetch

theorem exists_stepEnds (c : Computer) :
    ∃ r d, c.step.result = r ∧ c.step.computer = d ∧ c.StepEnds r d :=
  ⟨_, _, rfl, rfl, c.stepEnds⟩

/-- Around its instruction a step moves the program counter at most. -/
theorem step_cpu_cases (c : Computer) :
    ((∃ fault, (c.instructionAt c.cpu.registers.pc).value = .error fault) ∧
      c.step.computer.cpu = c.cpu) ∨
    ∃ i r e, (c.instructionAt c.cpu.registers.pc).value = .ok i ∧ i.execute.Ends c r e ∧
      e.cpu.SameOffPage c.step.computer.cpu := by
  obtain ⟨r, d, -, hd, h⟩ := c.exists_stepEnds
  rw [hd]
  cases h with
  | undecoded hfetch => exact .inl ⟨⟨_, hfetch⟩, rfl⟩
  | faulted hfetch hexecute => exact .inr ⟨_, _, d, hfetch, hexecute, .refl d.cpu⟩
  | @executed i flow e d hfetch hexecute hshown =>
      refine .inr ⟨i, _, e, hfetch, hexecute, ?_⟩
      rw [← hshown.cpu_eq]
      cases flow with
      | next => exact e.cpu.sameOffPage_jump _
      | jump => exact .refl e.cpu

/-- A step that executes an instruction leaves what the instruction left, with
the step counted. -/
theorem step_of_executes {i : Instruction} {flow : Flow} {e : Computer}
    (hfetch : (c.instructionAt c.cpu.registers.pc).value = .ok i)
    (hexecute : i.execute.Ends c (.ok flow) e) :
    c.step.result = .ok () ∧ (e.counted i flow).SameOffDisplay c.step.computer := by
  obtain ⟨r, d, hr, hd, h⟩ := c.exists_stepEnds
  rw [hr, hd]
  cases h with
  | undecoded hfetch' =>
      rw [hfetch] at hfetch'
      contradiction
  | faulted hfetch' hexecute' =>
      obtain rfl := Except.ok.inj (hfetch.symm.trans hfetch')
      exact absurd (hexecute.1.symm.trans hexecute'.1) nofun
  | executed hfetch' hexecute' hshown =>
      obtain rfl := Except.ok.inj (hfetch.symm.trans hfetch')
      obtain rfl := Except.ok.inj (hexecute.1.symm.trans hexecute'.1)
      rw [← hexecute.2, hexecute'.2]
      exact ⟨rfl, hshown⟩

end Computer

end StackRisc
