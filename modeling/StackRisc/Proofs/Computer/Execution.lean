import StackRisc.Computer.Step
import StackRisc.Proofs.Computer.FileChunk
import StackRisc.Proofs.Encoding

/-!
# StackRisc.Proofs.Computer.Execution

How a step faults.  Fetching faults where there is no instruction to decode,
and of the instructions only five can fault; nothing after the instruction
does.

* `Computer.instructionAt_eq_error_iff` — where no instruction can be decoded;
* `Action.ends_execute_error` — the faults of each instruction, with the
  machine that they leave;
* `Action.ends_step_error` — the faults of a step.
-/

namespace StackRisc

/-! ## Decoding -/

/-- The bytes above 22 have no operation code. -/
theorem Opcode.ofByte?_eq_none_iff {b : Byte} : ofByte? b = none ↔ 22 < b.toNat := by
  simp [ofByte?, all]
  omega

namespace Computer

variable {c : Computer} {address : Address} {i : Instruction}

/-- The byte at the program counter. -/
def code (c : Computer) : Byte := (c.memory.read8 c.cpu c.cpu.registers.pc).value

/-- The operation code at the program counter. -/
def opcode? (c : Computer) : Option Opcode := Opcode.ofByte? c.code

/-- No instruction can be decoded where the byte is no operation code, or
where an operand runs over the end of its region. -/
theorem instructionAt_eq_error_iff :
    (∃ fault, (c.instructionAt address).value = .error fault) ↔
      22 < (c.memory.read8 c.cpu address).value.toNat ∨
      ∃ op, Opcode.ofByte? (c.memory.read8 c.cpu address).value = some op ∧ op.hasOperand = true ∧
        c.memory.Overruns .read (address + 1) := by
  rw [← Opcode.ofByte?_eq_none_iff, ← Memory.read32_eq_error_iff c.cpu, instructionAt]
  cases hop : Opcode.ofByte? (c.memory.read8 c.cpu address).value with
  | none => simp
  | some op =>
      cases hoperand : op.hasOperand with
      | false => simp [hoperand]
      | true =>
          cases hword : (c.memory.read32 c.cpu (address + 1)).value <;> simp [hoperand, hword]

/-- The first byte of a decoded instruction is its operation code. -/
theorem opcode_of_instructionAt (h : (c.instructionAt address).value = .ok i) :
    Opcode.ofByte? (c.memory.read8 c.cpu address).value = some i.opcode := by
  cases hop : Opcode.ofByte? (c.memory.read8 c.cpu address).value with
  | none => simp [instructionAt, hop] at h
  | some op =>
      cases hoperand : op.hasOperand with
      | false =>
          simp only [instructionAt, hop, hoperand] at h
          rw [← Except.ok.inj h, Instruction.opcode_ofOpcode]
      | true =>
          cases hword : (c.memory.read32 c.cpu (address + 1)).value with
          | error cause => simp [instructionAt, hop, hoperand, hword] at h
          | ok w =>
              simp only [instructionAt, hop, hoperand, hword] at h
              rw [← Except.ok.inj h, Instruction.opcode_ofOpcode]

/-- An instruction without an operand is decoded from its operation code. -/
theorem instructionAt_eq_ok_iff (hoperand : i.opcode.hasOperand = false) :
    (c.instructionAt address).value = .ok i ↔
      Opcode.ofByte? (c.memory.read8 c.cpu address).value = some i.opcode := by
  refine ⟨opcode_of_instructionAt, fun h => ?_⟩
  have hi : Instruction.ofOpcode i.opcode 0 = i := by
    rw [← Instruction.operand_eq_zero hoperand, i.ofOpcode_operand]
  rw [instructionAt, h]
  simp [hoperand, hi]

end Computer

/-! ## Executing -/

/-- Every way in which an instruction faults on a machine, with the machine
that it leaves. -/
inductive Instruction.Faults (c : Computer) : Instruction → Fault → Computer → Prop
  | divisionByZero (h : c.cpu.accumulator = 0) :
      Faults c .div (.exception .divisionByZero) c.dropTop
  | unimplemented : Faults c .iret (.exception (.unimplemented .iret)) c
  | loadRefused {cause} (hwidth : c.cpu.width = .word)
      (h : (c.memory.read32 c.cpu.dropTop c.cpu.top.toAddress).value = .error cause) :
      Faults c .ldr (.exception (.memory cause)) c.dropTop
  | storeRefused {cause}
      (h : (c.memory.write c.cpu.width c.cpu.dropTop c.cpu.accumulator.toAddress
        c.cpu.top).value = .error cause) :
      Faults c .str (.exception (.memory cause)) c.dropTop
  | unknownService (h : c.syscalls.get? c.cpu.accumulator = none) :
      Faults c .sys (.exception (.unknownSyscall c.cpu.accumulator)) c
  | fileRefused {cause} (hservice : c.syscalls.get? c.cpu.accumulator = some .readFileChunk)
      (h : c.files.read c.chunkRequest.path = .error cause) :
      Faults c .sys (.file c.chunkRequest.path cause) c.dropRequest
  | copyStopped {contents cause memory cpu}
      (hservice : c.syscalls.get? c.cpu.accumulator = some .readFileChunk)
      (hread : c.files.read c.chunkRequest.path = .ok contents)
      (h : Memory.StopsAt c.memory c.dropRequest.cpu c.chunkRequest.destination
        (c.chunkRequest.bytes contents) cause memory cpu) :
      Faults c .sys (.exception (.memory cause)) { c.dropRequest with memory, cpu }

namespace Action

variable {c d : Computer} {fault : Fault}

/-- Of the services only the one that reads files can fault. -/
theorem ends_perform_error {service : Syscall} :
    service.perform.Ends c (.error fault) d ↔
      service = .readFileChunk ∧ readFileChunkService.Ends c (.error fault) d := by
  cases service with
  | readFileChunk => simp [Syscall.perform]
  | displayMode =>
      simp only [Syscall.perform, displayModeService]
      cases h : DisplayMode.ofWord? c.cpu.top <;> simp [h]
  | exit => simp [Syscall.perform, exitService]
  | print => simp [Syscall.perform, printService, printLine]
  | assert => simp [Syscall.perform, assertService, printLine]
  | displayWidth => simp [Syscall.perform, displayWidthService, popDimension]
  | displayHeight => simp [Syscall.perform, displayHeightService, popDimension]
  | blit | initialized | toggleWidth => simp [Syscall.perform]

/-- A system call fails if there is no such service or a file cannot be
copied. -/
theorem ends_syscall_error {index : Word} :
    (syscall index).Ends c (.error fault) d ↔
      (c.syscalls.get? index = none ∧ .exception (.unknownSyscall index) = fault ∧ c = d) ∨
      (c.syscalls.get? index = some .readFileChunk ∧
        readFileChunkService.Ends c (.error fault) d) := by
  cases h : c.syscalls.get? index with
  | none => simp [syscall, h]
  | some service => simp [syscall, h, ends_perform_error]

section Instructions

variable {i : Instruction}

/-- Division fails for zero alone. -/
theorem ends_div_error :
    Instruction.div.execute.Ends c (.error fault) d ↔
      c.cpu.accumulator = 0 ∧ .exception .divisionByZero = fault ∧ c.dropTop = d := by
  simp [Instruction.execute, divide]

/-- The reserved instruction always fails. -/
theorem ends_iret_error :
    Instruction.iret.execute.Ends c (.error fault) d ↔
      .exception (.unimplemented .iret) = fault ∧ c = d := by
  simp [Instruction.execute]

/-- A load fails in word mode alone, where the word cannot be read. -/
theorem ends_ldr_error :
    Instruction.ldr.execute.Ends c (.error fault) d ↔
      c.cpu.width = .word ∧
        (∃ cause, (c.memory.read32 c.cpu.dropTop c.cpu.top.toAddress).value = .error cause ∧
          .exception (.memory cause) = fault) ∧ c.dropTop = d := by
  simp [Instruction.execute]

/-- A store fails where memory refuses the write. -/
theorem ends_str_error :
    Instruction.str.execute.Ends c (.error fault) d ↔
      (∃ cause, (c.memory.write c.cpu.width c.cpu.dropTop c.cpu.accumulator.toAddress
        c.cpu.top).value = .error cause ∧ .exception (.memory cause) = fault) ∧ c.dropTop = d := by
  simp [Instruction.execute]
  constructor
  · rintro ⟨rfl, h⟩
    exact ⟨h, rfl⟩
  · rintro ⟨h, rfl⟩
    exact ⟨rfl, h⟩

theorem ends_sys_error :
    Instruction.sys.execute.Ends c (.error fault) d ↔
      (syscall c.cpu.accumulator).Ends c (.error fault) d := by
  simp [Instruction.execute]

/-- No other instruction faults. -/
theorem not_ends_execute_error (hdiv : i ≠ .div) (hiret : i ≠ .iret) (hldr : i ≠ .ldr)
    (hstr : i ≠ .str) (hsys : i ≠ .sys) : ¬ i.execute.Ends c (.error fault) d := by
  cases i with
  | div | iret | ldr | str | sys => contradiction
  | ret =>
      simp only [Instruction.execute, returnFromCall]
      cases h : c.cpu.calls.pop? <;> simp [h]
  | cpop =>
      simp only [Instruction.execute, dropCall]
      cases h : c.cpu.calls.pop? <;> simp [h]
  | bge target => simp [Instruction.execute, branch]
  | cmp | grt | les => simp [Instruction.execute, compare]
  | add | sub | mul | lshft | rshft => simp [Instruction.execute, combine]
  | ldi | push | pop | clc | sec | flp | hlt => simp [Instruction.execute]

/-- The faults of an instruction. -/
theorem ends_execute_error : i.execute.Ends c (.error fault) d ↔ i.Faults c fault d := by
  constructor
  · intro h
    cases i with
    | div =>
        obtain ⟨hzero, rfl, rfl⟩ := ends_div_error.mp h
        exact .divisionByZero hzero
    | iret =>
        obtain ⟨rfl, rfl⟩ := ends_iret_error.mp h
        exact .unimplemented
    | ldr =>
        obtain ⟨hwidth, ⟨cause, hread, rfl⟩, rfl⟩ := ends_ldr_error.mp h
        exact .loadRefused hwidth hread
    | str =>
        obtain ⟨⟨cause, hwrite, rfl⟩, rfl⟩ := ends_str_error.mp h
        exact .storeRefused hwrite
    | sys =>
        rcases ends_syscall_error.mp (ends_sys_error.mp h) with
          ⟨hnone, rfl, rfl⟩ | ⟨hservice, hchunk⟩
        · exact .unknownService hnone
        rcases ends_readFileChunk_error.mp hchunk with
          ⟨cause, hread, rfl, rfl⟩ | ⟨contents, hread, cause, memory, cpu, hstops, rfl, rfl⟩
        · exact .fileRefused hservice hread
        · exact .copyStopped hservice hread hstops
    | bge | ldi | cmp | add | push | pop | clc | sec | ret | hlt | grt | sub | mul | flp | les
      | cpop | lshft | rshft =>
        exact absurd h (not_ends_execute_error nofun nofun nofun nofun nofun)
  · intro h
    cases h with
    | divisionByZero hzero => exact ends_div_error.mpr ⟨hzero, rfl, rfl⟩
    | unimplemented => exact ends_iret_error.mpr ⟨rfl, rfl⟩
    | loadRefused hwidth hread => exact ends_ldr_error.mpr ⟨hwidth, ⟨_, hread, rfl⟩, rfl⟩
    | storeRefused hwrite => exact ends_str_error.mpr ⟨⟨_, hwrite, rfl⟩, rfl⟩
    | unknownService hnone =>
        exact ends_sys_error.mpr (ends_syscall_error.mpr (.inl ⟨hnone, rfl, rfl⟩))
    | fileRefused hservice hread =>
        exact ends_sys_error.mpr (ends_syscall_error.mpr (.inr ⟨hservice,
          ends_readFileChunk_error.mpr (.inl ⟨_, hread, rfl, rfl⟩)⟩))
    | copyStopped hservice hread hstops =>
        exact ends_sys_error.mpr (ends_syscall_error.mpr (.inr ⟨hservice,
          ends_readFileChunk_error.mpr (.inr ⟨_, hread, _, _, _, hstops, rfl, rfl⟩)⟩))

end Instructions

end Action

/-! ## Stepping -/

/-- What a step does after the instruction. -/
def Instruction.complete (i : Instruction) : Flow → Action Unit
  | .next => do
    Action.modifyCpu fun cpu => cpu.jump (cpu.registers.pc + UInt32.ofNat i.size)
    Action.modify fun c => { c with cycles := c.cycles + 1 }
    present
  | .jump => do
    Action.modify fun c => { c with cycles := c.cycles + 1 }
    present

/-- A step is fetching, executing and completing. -/
theorem step_eq : step = fetch >>= fun i => i.execute >>= i.complete := rfl

namespace Action

variable {c d : Computer} {fault : Fault}

@[simp] theorem ends_fetch {r : Except Fault Instruction} :
    fetch.Ends c r d ↔ (c.instructionAt c.cpu.registers.pc).value = r ∧ c = d := by
  unfold Ends run fetch
  cases h : (c.instructionAt c.cpu.registers.pc).value <;> simp [h]

/-- Handing a picture over never fails. -/
theorem not_ends_present_error : ¬ present.Ends c (.error fault) d := by
  unfold Ends run present
  split
  · split
    · simp
    · split
      · simp
      · split <;> simp
  · simp

/-- What follows an instruction never faults. -/
theorem not_ends_complete_error {i : Instruction} {flow : Flow} :
    ¬ (i.complete flow).Ends c (.error fault) d := by
  cases flow <;> simp [Instruction.complete, not_ends_present_error]

/-- A step faults where fetching faults, or where the instruction does. -/
theorem ends_step_error :
    step.Ends c (.error fault) d ↔
      ((c.instructionAt c.cpu.registers.pc).value = .error fault ∧ c = d) ∨
      ∃ i, (c.instructionAt c.cpu.registers.pc).value = .ok i ∧ i.Faults c fault d := by
  simp [step_eq, ends_fetch, ends_execute_error, not_ends_complete_error]
  exact or_comm

end Action

end StackRisc
