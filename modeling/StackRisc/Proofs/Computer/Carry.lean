import StackRisc.Proofs.Computer.Arithmetic
import StackRisc.Proofs.Computer.FileCopy
import StackRisc.Proofs.Computer.Nesting

/-!
# StackRisc.Proofs.Computer.Carry

The carry is a byte, though the instructions that set it give it only zero and
one: a program can put any byte there, by a store to the system page or by
copying part of a file over it.

* `Memory.carry_write`, `Memory.carry_storeBytes` — what a write makes of the
  carry;
* `Computer.carry_step` — what a step makes of it;
* `Traces.carry_cases` — where the carry at a place of a run comes from;
* `Computer.carry_is_bit_unless_written` — without such a write it is a bit, and
  those who look at it agree.
-/

namespace StackRisc

/-- The carry after values have been written to it, one after the other. -/
def carryAfter (carry : Byte) (values : List Word) : Byte :=
  (values.getLast?.map Word.lowByte).getD carry

@[simp] theorem carryAfter_nil (carry : Byte) : carryAfter carry [] = carry := rfl

@[simp] theorem carryAfter_singleton (carry : Byte) (v : Word) :
    carryAfter carry [v] = v.lowByte := rfl

/-- Bytes reach the carry one after the other, and the last one stays. -/
theorem carryAfter_append (carry : Byte) (values values' : List Word) :
    carryAfter carry (values ++ values') = carryAfter (carryAfter carry values) values' := by
  unfold carryAfter
  rw [List.getLast?_append]
  cases values'.getLast? <;> rfl

/-! ## Writes -/

namespace Memory

variable {m m' : Memory} {cpu cpu' : Cpu} {a : Address} {width : Width} {v : Word}
  {bytes : List Byte} {cause : MemoryFault}

/-- A write to the address goes to the carry, at offset 4 of the system page. -/
def reachesCarry (m : Memory) (width : Width) (a : Address) : Bool :=
  match m.locate a .write with
  | .ok l => l.region.kind == .systemPage && l.offset == 4 && (width == .byte || spanFits l)
  | .error _ => false

/-- What a write puts into the carry. -/
def carryWrite (m : Memory) (width : Width) (a : Address) (v : Word) : List Word :=
  if m.reachesCarry width a then [v] else []

/-- What bytes stored at successive addresses put into the carry, up to the
first one that is refused. -/
def carryBytes (m : Memory) (cpu : Cpu) (a : Address) : List Byte → List Word
  | [] => []
  | b :: rest =>
    match (m.write .byte cpu a (Word.ofByte b)).value with
    | .ok (m', cpu') => m.carryWrite .byte a (Word.ofByte b) ++ carryBytes m' cpu' (a + 1) rest
    | .error _ => []

/-- A write reaches the carry exactly at its offset in a system page that can be
written. -/
theorem reachesCarry_iff :
    m.reachesCarry width a = true ↔
      ∃ l, m.locate a .write = .ok l ∧ l.region.kind = .systemPage ∧ l.offset = 4 ∧
        (width = .word → l.offset + 4 ≤ l.region.size) := by
  unfold reachesCarry
  cases m.locate a .write with
  | error fault => simp
  | ok l => cases width <;> simp [spanFits, and_assoc]

/-- A write that is ignored does not go anywhere. -/
theorem IgnoresWrite.reachesCarry_eq (h : m.IgnoresWrite a) :
    m.reachesCarry width a = false := by
  rw [← Bool.not_eq_true, reachesCarry_iff]
  rintro ⟨l, hlocate, -⟩
  obtain ⟨howns, hgranted⟩ := locate_eq_ok_iff.mp hlocate
  rcases h with hnone | ⟨l', howns', hdenied, -⟩
  · exact hnone l howns
  · obtain rfl := howns.unique howns'
    exact absurd (hgranted.symm.trans hdenied) nofun

/-- Where a write that is carried out lands, it goes to the carry if that is
what is there. -/
theorem reachesCarry_of_owns {l : Location} (howns : m.Owns a l)
    (hwrite : (m.write width cpu a v).value = .ok (m', cpu')) (hnot : ¬ m.IgnoresWrite a) :
    m.reachesCarry width a = true ↔ l.region.kind = .systemPage ∧ l.offset = 4 := by
  obtain ⟨-, hgranted, hspan⟩ := granted_of_write howns hwrite hnot
  rw [reachesCarry_iff]
  constructor
  · rintro ⟨l', hlocate, hkind, hoffset, -⟩
    obtain rfl := howns.unique (locate_eq_ok_iff.mp hlocate).1
    exact ⟨hkind, hoffset⟩
  · rintro ⟨hkind, hoffset⟩
    exact ⟨l, locate_eq_ok_iff.mpr ⟨howns, hgranted⟩, hkind, hoffset,
      fun hword => Nat.not_lt.mp fun hover => hspan ⟨hword, hover⟩⟩

/-- A write that is carried out changes the carry where it goes to it, and
nowhere else. -/
theorem carry_write (h : (m.write width cpu a v).value = .ok (m', cpu')) :
    cpu'.registers.carry = carryAfter cpu.registers.carry (m.carryWrite width a v) := by
  unfold carryWrite
  by_cases hignored : m.IgnoresWrite a
  · rw [write_of_ignoresWrite hignored] at h
    obtain ⟨-, rfl⟩ := Prod.mk.inj (Except.ok.inj h)
    rw [hignored.reachesCarry_eq]
    rfl
  · have hreaches {l : Location} (howns : m.Owns a l) := reachesCarry_of_owns howns h hignored
    cases writeEffect_of_write h hignored with
    | bytes howns hkind =>
        have hnot : ¬ m.reachesCarry width a = true := by
          rw [hreaches howns]
          rintro ⟨hpage, -⟩
          rw [hpage] at hkind
          simp at hkind
        rw [if_neg hnot, carryAfter_nil]
    | @counter l howns hkind hoffset =>
        have hnot : ¬ m.reachesCarry width a = true := by simp [hreaches howns, hoffset]
        rw [if_neg hnot]
        rfl
    | carry howns hkind hoffset =>
        rw [if_pos ((hreaches howns).mpr ⟨hkind, hoffset⟩), carryAfter_singleton]
        exact Width.lowByte_kept width v
    | nothing howns hkind hoffset =>
        have hnot : ¬ m.reachesCarry width a = true := by simp [hreaches howns, hoffset.2]
        rw [if_neg hnot, carryAfter_nil]

/-- A write that is refused does not go to the carry. -/
theorem carryWrite_of_refused (h : (m.write width cpu a v).value = .error cause) :
    m.carryWrite width a v = [] := by
  refine if_neg ?_
  rw [reachesCarry_iff]
  rintro ⟨l, hlocate, hkind, -, hspan⟩
  have howns := (locate_eq_ok_iff.mp hlocate).1
  rcases write_eq_error_iff.mp ⟨cause, h⟩ with hguards | ⟨hword, hover⟩
  · rw [guards_iff_of_owns howns, hkind] at hguards
    contradiction
  · exact Nat.not_lt.mpr (hspan hword) ((overruns_iff_of_owns howns).mp hover).2

/-- Storing bytes leaves in the carry the last one that reached it. -/
theorem carry_storeBytes (h : m.storeBytes cpu a bytes = .ok (m', cpu')) :
    cpu'.registers.carry = carryAfter cpu.registers.carry (m.carryBytes cpu a bytes) := by
  induction bytes generalizing m cpu a with
  | nil =>
      obtain ⟨-, rfl⟩ := Prod.mk.inj (Except.ok.inj h)
      rfl
  | cons b rest ih =>
      rw [storeBytes] at h
      split at h
      · next m₁ cpu₁ hwrite =>
        rw [carryBytes, hwrite, carryAfter_append, ← carry_write hwrite]
        exact ih h
      · contradiction

/-- Of a copy that stops, the bytes in front of the refused one count. -/
theorem StopsAt.carry (h : StopsAt m cpu a bytes cause m' cpu') :
    cpu'.registers.carry = carryAfter cpu.registers.carry (m.carryBytes cpu a bytes) := by
  induction h with
  | refused hwrite =>
      rw [carryBytes, hwrite]
      rfl
  | stored hwrite hrest ih =>
      rw [carryBytes, hwrite, carryAfter_append, ← carry_write hwrite]
      exact ih

end Memory

/-! ## Instructions -/

/-- An instruction whose result is the carry. -/
def Instruction.setsCarry : Instruction → Bool
  | cmp | grt | les | clc | sec | flp => true
  | _ => false

/-- What the service that copies part of a file writes to the carry. -/
def Computer.chunkCarryWrites (c : Computer) : List Word :=
  match c.files.read c.chunkRequest.path with
  | .ok contents =>
    c.memory.carryBytes c.dropRequest.cpu c.chunkRequest.destination
      (c.chunkRequest.bytes contents)
  | .error _ => []

/-- What an instruction writes to the carry by its address in the system page,
one value after the other. -/
def Instruction.carryWrites (c : Computer) : Instruction → List Word
  | str => c.memory.carryWrite c.cpu.width c.cpu.accumulator.toAddress c.cpu.top
  | sys =>
    if c.syscalls.get? c.cpu.accumulator = some .readFileChunk then c.chunkCarryWrites else []
  | _ => []

namespace Computer

/-- The result of the instruction at the program counter is the carry. -/
def SetsCarry (c : Computer) : Prop :=
  ∃ i, (c.instructionAt c.cpu.registers.pc).value = .ok i ∧ i.setsCarry = true

/-- What the instruction at the program counter writes to the carry by its
address in the system page. -/
def carryWrites (c : Computer) : List Word :=
  match (c.instructionAt c.cpu.registers.pc).value with
  | .ok i => i.carryWrites c
  | .error _ => []

variable {c d : Computer} {seen : List Computer}

/-- Moving operands leaves the carry alone. -/
theorem operandStable_carry_eq :
    Cpu.OperandStable fun cpu cpu' => cpu'.registers.carry = cpu.registers.carry where
  refl _ := rfl
  trans h h' := h'.trans h
  dropTop cpu := by rw [Cpu.dropTop_eq]
  push cpu v := by cases cpu.width <;> rfl
  setAccumulator cpu v := by
    unfold Cpu.setAccumulator
    cases cpu.width <;> rfl

/-- Dropping operands leaves the carry. -/
theorem carry_dropRequest (c : Computer) :
    c.dropRequest.cpu.registers.carry = c.cpu.registers.carry := by
  simp only [dropRequest, cpu_dropTop, Cpu.registers_dropTop]

/-- Copying a file leaves in the carry the last byte that reached it. -/
theorem carry_readFileChunk {r : Except Fault Unit} (h : readFileChunkService.Ends c r d) :
    d.cpu.registers.carry = carryAfter c.cpu.registers.carry c.chunkCarryWrites := by
  unfold chunkCarryWrites
  rw [← carry_dropRequest c]
  cases r with
  | ok =>
      obtain ⟨contents, hread, memory, cpu, hstore, rfl⟩ := Action.ends_readFileChunk_ok.mp h
      rw [hread]
      exact (operandStable_carry_eq.push cpu _).trans (Memory.carry_storeBytes hstore)
  | error fault =>
      rcases Action.ends_readFileChunk_error.mp h with
        ⟨cause, hread, -, rfl⟩ | ⟨contents, hread, cause, memory, cpu, hstops, -, rfl⟩
      · rw [hread]
        rfl
      · rw [hread]
        exact hstops.carry

/-- No other service touches the carry. -/
theorem carry_perform {service : Syscall} {r : Except Fault Unit}
    (h : service.perform.Ends c r d) (hchunk : service ≠ .readFileChunk) :
    d.cpu.registers.carry = c.cpu.registers.carry := by
  by_cases htoggle : service = .toggleWidth
  · subst htoggle
    obtain ⟨-, rfl⟩ := h
    rfl
  · exact Action.keepsCpu_performOperands operandStable_carry_eq htoggle hchunk h

/-- A system call touches the carry only by copying a file. -/
theorem carry_sys {r : Except Fault Flow} (h : Instruction.sys.execute.Ends c r d) :
    d.cpu.registers.carry =
      carryAfter c.cpu.registers.carry (Instruction.sys.carryWrites c) := by
  rw [Instruction.carryWrites]
  rcases Action.ends_sys_cases h with ⟨hnone, rfl⟩ | ⟨service, r', hservice, hperform⟩
  · rw [hnone, if_neg nofun, carryAfter_nil]
  · by_cases hchunk : service = .readFileChunk
    · subst hchunk
      rw [if_pos hservice]
      exact carry_readFileChunk hperform
    · rw [hservice, if_neg (mt Option.some.inj hchunk), carryAfter_nil]
      exact carry_perform hperform hchunk

/-- A store touches the carry only by reaching it. -/
theorem carry_str {r : Except Fault Flow} (h : Instruction.str.execute.Ends c r d) :
    d.cpu.registers.carry =
      carryAfter c.cpu.registers.carry (Instruction.str.carryWrites c) := by
  rw [← c.cpu.registers_dropTop, Instruction.carryWrites]
  cases r with
  | ok flow =>
      obtain ⟨⟨memory, cpu, hwrite, rfl⟩, -⟩ : (∃ memory cpu,
          (c.memory.write c.cpu.width c.cpu.dropTop c.cpu.accumulator.toAddress c.cpu.top).value =
            .ok (memory, cpu) ∧ { c.dropTop with memory, cpu } = d) ∧ Flow.next = flow := by
        simpa [Instruction.execute] using h
      exact Memory.carry_write hwrite
  | error fault =>
      obtain ⟨⟨cause, hwrite, -⟩, rfl⟩ := Action.ends_str_error.mp h
      rw [Memory.carryWrite_of_refused hwrite]
      rfl

/-- An instruction sets the carry to a bit. -/
theorem carry_setCarry (cpu : Cpu) (on : Bool) :
    (cpu.setCarry on).registers.carry = 0 ∨ (cpu.setCarry on).registers.carry = 1 := by
  cases on with
  | false => exact .inl rfl
  | true => exact .inr rfl

/-- The result of a comparison, or what `CLC`, `SEC` and `FLP` leave, is a bit. -/
theorem carry_of_setsCarry {i : Instruction} {r : Except Fault Flow} (h : i.execute.Ends c r d)
    (hsets : i.setsCarry = true) : d.cpu.registers.carry = 0 ∨ d.cpu.registers.carry = 1 := by
  obtain ⟨-, rfl⟩ := h
  cases i with
  | cmp | grt | les => exact carry_setCarry c.cpu.dropTop _
  | clc | sec | flp => exact carry_setCarry c.cpu _
  | _ => contradiction

/-- The other instructions change the carry through the system page or not at
all, however they end. -/
theorem carry_execute {i : Instruction} {r : Except Fault Flow} (h : i.execute.Ends c r d)
    (hsets : i.setsCarry = false) :
    d.cpu.registers.carry = carryAfter c.cpu.registers.carry (i.carryWrites c) := by
  cases i with
  | cmp | grt | les | clc | sec | flp => contradiction
  | str => exact carry_str h
  | sys => exact carry_sys h
  | bge target =>
      have hends := Action.ends_branch.mp h
      split at hends <;> (obtain ⟨-, rfl⟩ := hends; rfl)
  | ret =>
      have hends := Action.ends_returnFromCall.mp h
      split at hends <;> (obtain ⟨-, rfl⟩ := hends; rfl)
  | cpop =>
      obtain ⟨-, rfl⟩ := Action.ends_dropCall.mp h
      rfl
  | ldi | add | push | pop | ldr | hlt | sub | mul | div | lshft | rshft | iret =>
      exact Action.keepsCpu_executeOperands operandStable_carry_eq
        (by simp [Instruction.opcode]) h

/-! ## Steps -/

/-- Counting a cycle leaves the carry. -/
theorem carry_counted (i : Instruction) (flow : Flow) :
    (c.counted i flow).cpu.registers.carry = c.cpu.registers.carry := by
  cases flow <;> rfl

/-- A step makes the carry a bit by its instruction, or it changes the carry
through the system page or not at all, whether it succeeds or not. -/
theorem carry_step (c : Computer) :
    (c.SetsCarry ∧
      (c.step.computer.cpu.registers.carry = 0 ∨ c.step.computer.cpu.registers.carry = 1)) ∨
    ¬ c.SetsCarry ∧
      c.step.computer.cpu.registers.carry = carryAfter c.cpu.registers.carry c.carryWrites := by
  have executed {i : Instruction} {r : Except Fault Flow} {e : Computer}
      (hfetch : (c.instructionAt c.cpu.registers.pc).value = .ok i) (h : i.execute.Ends c r e) :
      (c.SetsCarry ∧ (e.cpu.registers.carry = 0 ∨ e.cpu.registers.carry = 1)) ∨
      ¬ c.SetsCarry ∧ e.cpu.registers.carry = carryAfter c.cpu.registers.carry c.carryWrites := by
    have hwrites : c.carryWrites = i.carryWrites c := by rw [carryWrites, hfetch]
    have hsets : c.SetsCarry ↔ i.setsCarry = true := by simp [SetsCarry, hfetch]
    rw [hwrites, hsets]
    cases hi : i.setsCarry with
    | true => exact .inl ⟨rfl, carry_of_setsCarry h hi⟩
    | false => exact .inr ⟨nofun, carry_execute h hi⟩
  obtain ⟨r, d, -, hd, h⟩ := c.exists_stepEnds
  rw [hd]
  cases h with
  | undecoded hfetch =>
      refine .inr ⟨by simp [SetsCarry, hfetch], ?_⟩
      rw [carryWrites, hfetch, carryAfter_nil]
  | faulted hfetch hexecute => exact executed hfetch hexecute
  | executed hfetch hexecute hshown =>
      rw [← hshown.cpu_eq, carry_counted]
      exact executed hfetch hexecute

/-! ## Runs -/

/-- The carry is what was last written to it through the system page, and no
instruction has set it since. -/
def CarryWritten (seen : List Computer) (carry : Byte) : Prop :=
  ∃ front e back v, seen = front ++ e :: back ∧ e.carryWrites.getLast? = some v ∧
    carry = v.lowByte ∧ ∀ between ∈ back, between.carryWrites = [] ∧ ¬ between.SetsCarry

/-- A step that leaves the carry alone. -/
theorem CarryWritten.concat {carry : Byte} (h : CarryWritten seen carry)
    (hwrites : d.carryWrites = []) (hsets : ¬ d.SetsCarry) : CarryWritten (seen ++ [d]) carry := by
  obtain ⟨front, e, back, v, rfl, hlast, hcarry, hback⟩ := h
  refine ⟨front, e, back ++ [d], v, by simp, hlast, hcarry, fun between hbetween => ?_⟩
  rcases List.mem_append.mp hbetween with hbefore | hlater
  · exact hback between hbefore
  · rw [List.mem_singleton.mp hlater]
    exact ⟨hwrites, hsets⟩

/-- At a place of a run that starts with a bit the carry is a bit, or what was
last written to it. -/
theorem Traces.carry_cases (h : c.Traces seen d)
    (hstart : c.cpu.registers.carry = 0 ∨ c.cpu.registers.carry = 1) :
    (d.cpu.registers.carry = 0 ∨ d.cpu.registers.carry = 1) ∨
      CarryWritten seen d.cpu.registers.carry := by
  induction h with
  | refl => exact .inl hstart
  | host _ files link ih => exact ih
  | @step seen d _ ih =>
      rcases d.carry_step with ⟨-, hbit⟩ | ⟨hsets, hcarry⟩
      · exact .inl hbit
      cases hlast : d.carryWrites.getLast? with
      | some v =>
          rw [hcarry, carryAfter, hlast]
          exact .inr ⟨seen, d, [], v, rfl, hlast, rfl, List.forall_mem_nil _⟩
      | none =>
          have hwrites := List.getLast?_eq_none_iff.mp hlast
          rw [hcarry, hwrites, carryAfter_nil]
          exact ih.imp_right fun hwritten => hwritten.concat hwrites hsets

/-! ## Those who look at the carry -/

/-- A branch is taken exactly if the carry is one. -/
theorem exists_branch_iff {target : Address} :
    (∃ e, (Instruction.bge target).execute.Ends c (.ok .jump) e) ↔ c.cpu.registers.carry = 1 := by
  simp only [Instruction.execute, Action.ends_branch]
  split <;> simp [*]

/-- A return is taken exactly if the carry is not zero. -/
theorem exists_return_iff :
    (∃ e, Instruction.ret.execute.Ends c (.ok .jump) e) ↔ c.cpu.registers.carry ≠ 0 := by
  simp only [Instruction.execute, Action.ends_returnFromCall]
  split <;> simp [*]

variable {config : Config} {image : List Byte}

/-- The carry is a bit unless the program pokes it.  At every place of every run
of a loaded image the carry is zero or one, or it is the low byte of the last
value that a store or a copy of a file put at offset 4 of the system page, with
no instruction since that sets the carry.  So in a run without such a write a
branch is taken exactly where a return would be, and a multiplication scales by
zero or one. -/
theorem carry_is_bit_unless_written (hload : load config image = .ok c) (h : c.Traces seen d) :
    (d.cpu.registers.carry = 0 ∨ d.cpu.registers.carry = 1 ∨
      CarryWritten seen d.cpu.registers.carry) ∧
    ((∀ e ∈ seen, e.carryWrites = []) →
      (d.cpu.registers.carry = 0 ∨ d.cpu.registers.carry = 1) ∧
      (∀ target, (∃ e, (Instruction.bge target).execute.Ends d (.ok .jump) e) ↔
        ∃ e, Instruction.ret.execute.Ends d (.ok .jump) e) ∧
      Instruction.mul.execute.Ends d (.ok .next)
        { d.dropTop with
          cpu := d.cpu.dropTop.setAccumulator
            (if d.cpu.registers.carry = 0 then 0
              else Arithmetic.mul d.cpu.width d.cpu.top d.cpu.accumulator 1) }) := by
  have hstart : c.cpu.registers.carry = 0 := by
    rw [eq_ofImage_of_load hload]
    rfl
  have hcases := h.carry_cases (.inl hstart)
  refine ⟨or_assoc.mp hcases, fun hnone => ?_⟩
  have hbit : d.cpu.registers.carry = 0 ∨ d.cpu.registers.carry = 1 := by
    rcases hcases with hbit | ⟨front, e, back, v, rfl, hlast, -⟩
    · exact hbit
    · rw [hnone e (by simp)] at hlast
      contradiction
  have hmul := @Arithmetic.Operation.ends_execute d .mul nofun
  refine ⟨hbit, fun target => ?_, ?_⟩
  · rw [exists_branch_iff, exists_return_iff]
    rcases hbit with hzero | hone
    · simp [hzero]
    · simp [hone]
  · rw [Arithmetic.Operation.compute] at hmul
    rcases hbit with hzero | hone
    · rw [if_pos hzero]
      rwa [hzero, Arithmetic.mul_carry_zero] at hmul
    · rw [if_neg (by rw [hone]; decide)]
      rwa [hone] at hmul

/-- `LDI #4`, `PUSH` and `STR`. -/
def pokeImage : List Byte := [1, 4, 0, 0, 0, 4, 7]

/-- A machine that executes this program, with its system page at address 0. -/
def poking (cycles : Nat) (registers : Registers) (stack : OperandStack) : Computer :=
  { ofImage { layout := ⟨0, 0, 16, 16⟩, files := .empty } pokeImage with
    cpu := { registers, stack }
    cycles }

/-- The example has its image in the ROM. -/
theorem loaded_poking (cycles : Nat) (registers : Registers) (stack : OperandStack) :
    (poking cycles registers stack).Loaded ⟨0, 0, 16, 16⟩ pokeImage :=
  ⟨by decide, by decide, .refl _, rfl⟩

theorem step_poking_load : (poking 0 { pc := 32 } {}).step.computer =
    poking 1 { narrow := 4, pc := 37 } {} :=
  (loaded_poking 0 { pc := 32 } {}).step_of_fitsAt (.ldi 4)
    (Listing.fitsAt_padImage .ldi (by decide) rfl (by decide)) rfl

theorem step_poking_push : (poking 1 { narrow := 4, pc := 37 } {}).step.computer =
    poking 2 { narrow := 4, pc := 38 } ⟨[4]⟩ :=
  (loaded_poking 1 { narrow := 4, pc := 37 } {}).step_of_fitsAt .push
    (Listing.fitsAt_padImage .push (by decide) rfl (by decide)) rfl

/-- The `STR` puts the operand into the carry. -/
theorem step_poking_store : (poking 2 { narrow := 4, pc := 38 } ⟨[4]⟩).step.computer =
    poking 3 { narrow := 4, carry := 4, pc := 39 } {} :=
  (loaded_poking 2 { narrow := 4, pc := 38 } ⟨[4]⟩).step_of_fitsAt .str
    (Listing.fitsAt_padImage .str (by decide) rfl (by decide)) rfl

/-- The program leaves a carry that is no bit, and its last write is where it
comes from. -/
theorem carry_is_bit_unless_written_poked :
    ∃ c, load { layout := ⟨0, 0, 16, 16⟩, files := .empty } pokeImage = .ok c ∧
      ∃ seen d, c.Traces seen d ∧ d.cpu.registers.carry = 4 ∧
        CarryWritten seen d.cpu.registers.carry := by
  have horigin : (poking 0 {} {}).memory.origin = 32 :=
    UInt32.toNat_inj.mp (loaded_poking 0 {} {}).toNat_origin
  have hload : load { layout := ⟨0, 0, 16, 16⟩, files := .empty } pokeImage =
      .ok (poking 0 { pc := 32 } {}) := by
    rw [load_eq (by decide), ← horigin]
    rfl
  have htraces := Traces.refl (c := poking 0 { pc := 32 } {}) |>.step |>.step |>.step
  rw [step_poking_load, step_poking_push, step_poking_store] at htraces
  refine ⟨_, hload, _, _, htraces, rfl, ?_⟩
  rcases (carry_is_bit_unless_written hload htraces).1 with hzero | hone | hwritten
  · exact absurd hzero (by decide)
  · exact absurd hone (by decide)
  · exact hwritten

end Computer

end StackRisc
