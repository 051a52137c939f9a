import StackRisc.Proofs.Computer.Execution

/-!
# StackRisc.Proofs.Computer.Faults

Which steps fault, and what they leave behind.

* `Computer.step_fails_iff` — a step faults in seven cases and in no other;
* `Computer.step_error_leaves` — a faulting step takes operands of its
  instruction from the stack and changes nothing else, unless it is a copy
  that stopped.
-/

namespace StackRisc

/-! ## The standard services -/

namespace SyscallTable

variable {index : Word}

/-- The standard services are numbered from 0 to 9. -/
theorem get?_standard_eq_none_iff : standard.get? index = none ↔ index < 0 ∨ 9 < index := by
  have hbounds : (index < 0 ↔ index.toInt < 0) ∧ (9 < index ↔ 9 < index.toInt) :=
    ⟨Int32.lt_iff_toInt_lt, Int32.lt_iff_toInt_lt⟩
  simp [get?, standard, Syscall.all, List.zipIdx, ← Int32.toInt_inj, hbounds]
  omega

theorem mem_entries_of_get? {t : SyscallTable} {service : Syscall}
    (h : t.get? index = some service) : (index, service) ∈ t.entries := by
  obtain ⟨e, he, rfl⟩ := Option.map_eq_some_iff.mp h
  obtain rfl : e.1 = index := by simpa using List.find?_some he
  exact List.mem_of_find?_eq_some he

/-- A standard service has one number. -/
theorem get?_standard_eq_some_iff {service : Syscall} {number : Word}
    (h : (number, service) ∈ standard.entries) :
    standard.get? index = some service ↔ index = number := by
  have hnumber : ∀ e ∈ standard.entries, ∀ e' ∈ standard.entries, e.2 = e'.2 → e.1 = e'.1 := by
    decide
  have hfound : ∀ e ∈ standard.entries, standard.get? e.1 = some e.2 := by decide
  constructor
  · intro hservice
    exact hnumber _ (mem_entries_of_get? hservice) _ h rfl
  · rintro rfl
    exact hfound _ h

/-- Files are copied by service 6 alone. -/
theorem get?_standard_eq_readFileChunk_iff :
    standard.get? index = some .readFileChunk ↔ index = 6 :=
  get?_standard_eq_some_iff (by decide)

theorem get?_standard_eq_print_iff : standard.get? index = some .print ↔ index = 1 :=
  get?_standard_eq_some_iff (by decide)

theorem get?_standard_eq_toggleWidth_iff : standard.get? index = some .toggleWidth ↔ index = 5 :=
  get?_standard_eq_some_iff (by decide)

end SyscallTable

/-! ## When a step faults -/

namespace Computer

variable {c : Computer} {i : Instruction} {fault : Fault}

/-- The part of a file that the operands ask for cannot be copied: the file
cannot be read, or one of the bytes goes to the stack view or the ROM. -/
def RefusesChunk (c : Computer) : Prop :=
  (∃ cause, c.files.read c.chunkRequest.path = .error cause) ∨
  ∃ contents, c.files.read c.chunkRequest.path = .ok contents ∧
    ∃ k < (c.chunkRequest.bytes contents).length,
      c.memory.Guards (c.chunkRequest.destination + UInt32.ofNat k)

/-- Executing an instruction of an operation code faults. -/
def Refuses (c : Computer) : Opcode → Prop
  | .div => c.cpu.accumulator = 0
  | .iret => True
  | .sys => c.syscalls.get? c.cpu.accumulator = none ∨
      c.syscalls.get? c.cpu.accumulator = some .readFileChunk ∧ c.RefusesChunk
  | .ldr => c.cpu.width = .word ∧ c.memory.Overruns .read c.cpu.top.toAddress
  | .str => c.memory.Refuses c.cpu.width c.cpu.accumulator.toAddress
  | _ => False

/-- A file is not copied if it cannot be read, or memory refuses one of its
bytes. -/
theorem refusesChunk_iff :
    c.RefusesChunk ↔
      (∃ cause, c.files.read c.chunkRequest.path = .error cause) ∨
      ∃ contents, c.files.read c.chunkRequest.path = .ok contents ∧
        ∃ cause memory cpu, Memory.StopsAt c.memory c.dropRequest.cpu c.chunkRequest.destination
          (c.chunkRequest.bytes contents) cause memory cpu := by
  simp only [RefusesChunk, Memory.exists_stopsAt_iff]

/-- An instruction fails exactly in the cases of its operation code. -/
theorem exists_faults_iff : (∃ fault d, i.Faults c fault d) ↔ c.Refuses i.opcode := by
  constructor
  · rintro ⟨fault, d, h⟩
    cases h with
    | divisionByZero h => exact h
    | unimplemented => trivial
    | loadRefused hwidth h => exact ⟨hwidth, (Memory.read32_eq_error_iff _).mp ⟨_, h⟩⟩
    | storeRefused h => exact Memory.write_eq_error_iff.mp ⟨_, h⟩
    | unknownService h => exact .inl h
    | fileRefused hservice h => exact .inr ⟨hservice, refusesChunk_iff.mpr (.inl ⟨_, h⟩)⟩
    | copyStopped hservice hread h =>
        exact .inr ⟨hservice, refusesChunk_iff.mpr (.inr ⟨_, hread, _, _, _, h⟩)⟩
  · intro h
    cases i with
    | div => exact ⟨_, _, .divisionByZero h⟩
    | iret => exact ⟨_, _, .unimplemented⟩
    | ldr =>
        obtain ⟨hwidth, hover⟩ := h
        obtain ⟨cause, hread⟩ := (Memory.read32_eq_error_iff c.cpu.dropTop).mpr hover
        exact ⟨_, _, .loadRefused hwidth hread⟩
    | str =>
        obtain ⟨cause, hwrite⟩ := Memory.write_eq_error_iff.mpr h
        exact ⟨_, _, .storeRefused hwrite⟩
    | sys =>
        rcases h with hnone | ⟨hservice, hrefuses⟩
        · exact ⟨_, _, .unknownService hnone⟩
        rcases refusesChunk_iff.mp hrefuses with
          ⟨cause, hread⟩ | ⟨contents, hread, cause, memory, cpu, hstops⟩
        · exact ⟨_, _, .fileRefused hservice hread⟩
        · exact ⟨_, _, .copyStopped hservice hread hstops⟩
    | bge | ldi | cmp | add | push | pop | clc | sec | ret | hlt | grt | sub | mul | flp | les
      | cpop | lshft | rshft => exact h.elim

/-- No operation code with an operand faults when it is executed. -/
theorem hasOperand_of_refuses {op : Opcode} (h : c.Refuses op) : op.hasOperand = false := by
  cases op <;> first | rfl | exact h.elim

/-- The instruction at an address faults exactly if its operation code does. -/
theorem exists_instructionAt_faults_iff {address : Address} :
    (∃ i, (c.instructionAt address).value = .ok i ∧ ∃ fault d, i.Faults c fault d) ↔
      ∃ op, Opcode.ofByte? (c.memory.read8 c.cpu address).value = some op ∧ c.Refuses op := by
  simp only [exists_faults_iff]
  constructor
  · rintro ⟨i, hi, hrefuses⟩
    exact ⟨i.opcode, opcode_of_instructionAt hi, hrefuses⟩
  · rintro ⟨op, hop, hrefuses⟩
    have hopcode := Instruction.opcode_ofOpcode op 0
    refine ⟨.ofOpcode op 0, ?_, by rwa [hopcode]⟩
    rw [instructionAt_eq_ok_iff (by rw [hopcode]; exact hasOperand_of_refuses hrefuses), hopcode]
    exact hop

/-- A step faults where there is no instruction to decode, or where the
instruction faults. -/
theorem exists_step_error_iff :
    (∃ fault, c.step.result = .error fault) ↔
      (∃ fault, (c.instructionAt c.cpu.registers.pc).value = .error fault) ∨
      ∃ i, (c.instructionAt c.cpu.registers.pc).value = .ok i ∧
        ∃ fault d, i.Faults c fault d := by
  constructor
  · rintro ⟨fault, h⟩
    rcases Action.ends_step_error.mp ⟨h, rfl⟩ with ⟨hfetch, -⟩ | ⟨i, hi, hfaults⟩
    · exact .inl ⟨fault, hfetch⟩
    · exact .inr ⟨i, hi, fault, _, hfaults⟩
  · rintro (⟨fault, hfetch⟩ | ⟨i, hi, fault, d, hfaults⟩)
    · exact ⟨fault, (Action.ends_step_error.mpr (.inl ⟨hfetch, rfl⟩)).1⟩
    · exact ⟨fault, (Action.ends_step_error.mpr (.inr ⟨i, hi, hfaults⟩)).1⟩

/-- With the standard services a step faults in these seven cases and in no
other. -/
theorem step_fails_iff (hservices : c.syscalls = .standard) :
    (∃ fault, c.step.result = .error fault) ↔
      22 < c.code.toNat ∨
      ((c.opcode? = some .bge ∨ c.opcode? = some .ldi) ∧
        c.memory.Overruns .read (c.cpu.registers.pc + 1)) ∨
      (c.opcode? = some .div ∧ c.cpu.accumulator = 0) ∨
      c.opcode? = some .iret ∨
      (c.opcode? = some .sys ∧
        (c.cpu.accumulator < 0 ∨ 9 < c.cpu.accumulator ∨
          c.cpu.accumulator = 6 ∧ c.RefusesChunk)) ∨
      (c.opcode? = some .ldr ∧ c.cpu.width = .word ∧
        c.memory.Overruns .read c.cpu.top.toAddress) ∨
      (c.opcode? = some .str ∧
        (c.memory.Guards c.cpu.accumulator.toAddress ∨
          c.cpu.width = .word ∧ c.memory.Overruns .write c.cpu.accumulator.toAddress)) := by
  rw [exists_step_error_iff, instructionAt_eq_error_iff, exists_instructionAt_faults_iff]
  -- Fetching and executing now speak of the same operation code.
  change (22 < c.code.toNat ∨ ∃ op, c.opcode? = some op ∧ _) ∨ (∃ op, c.opcode? = some op ∧ _) ↔ _
  cases hop : c.opcode? with
  | none => simp
  | some op =>
      cases op <;>
        simp [Opcode.hasOperand, Refuses, Memory.Refuses, hservices, or_assoc,
          SyscallTable.get?_standard_eq_none_iff, SyscallTable.get?_standard_eq_readFileChunk_iff]

/-- A machine that is about to copy nine bytes to the carry on its system
page, the last of them to the first address of the stack view. -/
def copyingPastPage : Computer where
  cpu := { registers := { narrow := 6, pc := 20 }, stack := ⟨[0, 8, 0, 9]⟩ }
  memory := ⟨[.ram 4, .systemPage 12, .stack 4, .rom [16]]⟩
  files := ⟨fun _ => .ok [1, 0, 0, 0, 0, 0, 0, 0, 0]⟩

/-- Its step fails: the last byte goes to an address that is guarded. -/
theorem copyingPastPage_fails : copyingPastPage.syscalls = .standard ∧
    ∃ fault, copyingPastPage.step.result = .error fault := by
  have hguards : copyingPastPage.memory.Guards 16 := ⟨⟨2, .stack 4, 0⟩, ⟨rfl, rfl, by decide⟩, rfl⟩
  have hrefuses : copyingPastPage.RefusesChunk := .inr ⟨_, rfl, 8, by decide, hguards⟩
  exact ⟨rfl, (step_fails_iff rfl).mpr
    (.inr (.inr (.inr (.inr (.inl ⟨rfl, .inr (.inr ⟨rfl, hrefuses⟩)⟩)))))⟩

end Computer

/-! ## What a faulting step leaves -/

/-- Number of operands that a service pops. -/
def Syscall.operands : Syscall → Nat
  | exit | print | assert | displayMode | displayWidth | displayHeight => 1
  | readFileChunk => 4
  | blit | initialized | toggleWidth => 0

/-- Number of operands that an instruction pops itself; `SYS` leaves them to
the service. -/
def Opcode.operands : Opcode → Nat
  | cmp | grt | les | add | sub | mul | div | lshft | rshft | pop | ldr | str => 1
  | bge | ldi | push | clc | sec | flp | ret | cpop | hlt | sys | iret => 0

namespace Computer

variable {c d : Computer} {i : Instruction} {fault : Fault}

/-- Number of operands that the instruction at the program counter pops. -/
def operands (c : Computer) : Nat :=
  match c.opcode? with
  | some .sys => ((c.syscalls.get? c.cpu.accumulator).map Syscall.operands).getD 0
  | some op => op.operands
  | none => 0

/-- The machine without some operands on top of the stack. -/
def dropOperands (c : Computer) (n : Nat) : Computer :=
  { c with cpu := { c.cpu with
      stack := ⟨c.cpu.stack.bytes.drop (n * c.cpu.width.bytes)⟩ } }

theorem dropOperands_zero (c : Computer) : c.dropOperands 0 = c := by
  simp [dropOperands]

/-- Operands are dropped one after the other. -/
theorem dropOperands_dropOperands (c : Computer) (m n : Nat) :
    (c.dropOperands m).dropOperands n = c.dropOperands (m + n) := by
  simp [dropOperands, Nat.add_mul]

/-- Popping takes one operand, or none if there is none. -/
theorem exists_dropTop_eq (c : Computer) : ∃ n ≤ 1, c.dropTop = c.dropOperands n := by
  unfold dropTop dropOperands
  rw [Cpu.dropTop_eq]
  split
  · exact ⟨1, Nat.le_refl 1, by rw [Nat.one_mul]⟩
  · exact ⟨0, Nat.zero_le 1, by rw [Nat.zero_mul]⟩

/-- A request for a file takes at most four operands. -/
theorem exists_dropRequest_eq (c : Computer) : ∃ n ≤ 4, c.dropRequest = c.dropOperands n := by
  obtain ⟨n₁, h₁, heq₁⟩ := exists_dropTop_eq c
  obtain ⟨n₂, h₂, heq₂⟩ := exists_dropTop_eq (c.dropOperands n₁)
  obtain ⟨n₃, h₃, heq₃⟩ := exists_dropTop_eq (c.dropOperands (n₁ + n₂))
  obtain ⟨n₄, h₄, heq₄⟩ := exists_dropTop_eq (c.dropOperands (n₁ + n₂ + n₃))
  refine ⟨n₁ + n₂ + n₃ + n₄, by omega, ?_⟩
  rw [dropRequest, heq₁, heq₂, dropOperands_dropOperands, heq₃, dropOperands_dropOperands, heq₄,
    dropOperands_dropOperands]

/-- A copy into memory stopped, with some operands taken from the stack: the
bytes in front of the refused one have been stored, and nothing else changed. -/
structure StoppedCopy (c : Computer) (n : Nat) (d : Computer) : Prop where
  opcode : c.opcode? = some .sys
  service : c.syscalls.get? c.cpu.accumulator = some .readFileChunk
  stored : ∃ contents front b rest memory cpu,
    c.files.read c.chunkRequest.path = .ok contents ∧
    c.chunkRequest.bytes contents = front ++ b :: rest ∧
    c.memory.storeBytes (c.dropOperands n).cpu c.chunkRequest.destination front =
      .ok (memory, cpu) ∧
    c.memory.Guards (c.chunkRequest.destination + UInt32.ofNat front.length) ∧
    (c.dropOperands n).cpu.SameOffPage cpu ∧
    d = { c.dropOperands n with memory, cpu }

/-- Without a system call, the operands are those of the operation code. -/
theorem operands_of_opcode {op : Opcode} (hop : c.opcode? = some op) (hsys : op ≠ .sys) :
    c.operands = op.operands := by
  unfold operands
  split <;> simp_all

/-- Copying a file takes four operands. -/
theorem operands_of_readFileChunk (hop : c.opcode? = some .sys)
    (hservice : c.syscalls.get? c.cpu.accumulator = some .readFileChunk) : c.operands = 4 := by
  simp [operands, hop, hservice, Syscall.operands]

/-- An instruction that fails has dropped some of its operands, or has copied a
part of a file. -/
theorem leaves_of_faults (hop : c.opcode? = some i.opcode) (h : i.Faults c fault d) :
    ∃ n ≤ c.operands, d = c.dropOperands n ∨ c.StoppedCopy n d := by
  cases h with
  | divisionByZero | loadRefused | storeRefused =>
      obtain ⟨n, hn, heq⟩ := c.exists_dropTop_eq
      have hoperands := operands_of_opcode hop nofun
      exact ⟨n, by rwa [hoperands], .inl heq⟩
  | unimplemented | unknownService => exact ⟨0, Nat.zero_le _, .inl c.dropOperands_zero.symm⟩
  | fileRefused hservice hread =>
      obtain ⟨n, hn, heq⟩ := c.exists_dropRequest_eq
      have hoperands := operands_of_readFileChunk hop hservice
      exact ⟨n, by rwa [hoperands], .inl heq⟩
  | copyStopped hservice hread hstops =>
      obtain ⟨n, hn, heq⟩ := c.exists_dropRequest_eq
      obtain ⟨front, b, rest, hbytes, hstore, hguards⟩ := hstops.exists_split
      rw [heq] at hstore ⊢
      have hcpu := (Memory.sameMap_of_storeBytes hstore).2
      have hoperands := operands_of_readFileChunk hop hservice
      exact ⟨n, by rwa [hoperands], .inr ⟨hop, hservice, _, front, b, rest, _, _, hread, hbytes,
        hstore, hguards, hcpu, rfl⟩⟩

/-- A faulting step takes operands of its instruction from the stack and
changes nothing else, unless it is a copy that stopped. -/
theorem step_error_leaves (h : c.step.result = .error fault) :
    ∃ n ≤ c.operands, c.step.computer = c.dropOperands n ∨ c.StoppedCopy n c.step.computer := by
  rcases Action.ends_step_error.mp ⟨h, rfl⟩ with ⟨-, hd⟩ | ⟨i, hi, hfaults⟩
  · refine ⟨0, Nat.zero_le _, .inl ?_⟩
    rw [dropOperands_zero]
    exact hd.symm
  · exact leaves_of_faults (opcode_of_instructionAt hi) hfaults

/-- Its operands are gone, and the bytes in front of the refused one are
stored. -/
theorem copyingPastPage_leaves :
    copyingPastPage.step.result = .error (.exception (.memory (.readOnly .stack 16))) ∧
    ∃ n ≤ copyingPastPage.operands,
      copyingPastPage.step.computer = copyingPastPage.dropOperands n ∨
        copyingPastPage.StoppedCopy n copyingPastPage.step.computer := by
  have h : copyingPastPage.step.result = .error (.exception (.memory (.readOnly .stack 16))) := rfl
  exact ⟨h, step_error_leaves h⟩

/-- The bytes in front of the refused one have been stored: the carry is one. -/
example : copyingPastPage.step.computer.cpu.registers.carry = 1 := rfl

end Computer

end StackRisc
