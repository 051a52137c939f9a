import StackRisc.Proofs.Computer.Processor
import StackRisc.Proofs.Computer.Progress
import StackRisc.Proofs.Memory.Containment

/-!
# StackRisc.Proofs.Computer.MacroStore

The four instructions that store a value at an address: load the value, push
it, load the address and store.  Stepping through them comes to one write
(`Computer.StoresInFour`), in either width, and whatever becomes of the write.

* `Memory.Code` — code in a ROM that can be read, decoded one instruction after
  the other;
* `Computer.storesInFour_of_code` — what the four instructions do.
-/

namespace StackRisc

/-! ## Code in a ROM -/

namespace Memory

variable {m : Memory} {a : Address} {front rest : List Byte}

/-- The bytes of a ROM that can be read, from an address on. -/
def Code (m : Memory) (a : Address) (bytes : List Byte) : Prop :=
  ∃ l, m.Owns a l ∧ l.region.permissions.read = true ∧ l.region.kind = .rom ∧
    l.offset + bytes.length ≤ l.region.size ∧
    ∀ k < bytes.length, l.region.block.get? (l.offset + k) = bytes[k]?

/-- The bytes behind some bytes, if they have addresses. -/
theorem Code.tail (h : m.Code a (front ++ rest)) (hrest : rest ≠ [])
    (hroom : a.toNat + front.length < UInt32.size) :
    m.Code (a + UInt32.ofNat front.length) rest := by
  obtain ⟨l, hl, hread, hkind, hsize, hbytes⟩ := h
  have hpos := List.length_pos_iff.mpr hrest
  rw [List.length_append] at hsize hbytes
  refine ⟨{ l with offset := l.offset + front.length }, hl.shift (by omega) hroom, hread, hkind, ?_,
    fun k hk => ?_⟩
  · show l.offset + front.length + rest.length ≤ l.region.size
    omega
  · show l.region.block.get? (l.offset + front.length + k) = rest[k]?
    rw [Nat.add_assoc, hbytes _ (by omega), List.getElem?_append_right (by omega),
      Nat.add_sub_cancel_left]

/-- The first bytes of some bytes. -/
theorem Code.head (h : m.Code a (front ++ rest)) : m.Code a front := by
  obtain ⟨l, hl, hread, hkind, hsize, hbytes⟩ := h
  rw [List.length_append] at hsize hbytes
  refine ⟨l, hl, hread, hkind, by omega, fun k hk => ?_⟩
  rw [hbytes k (by omega), List.getElem?_append_left hk]

/-- Code is read byte by byte. -/
theorem Code.read8 {b : Byte} (h : m.Code a (b :: rest)) (cpu : Cpu) :
    m.read8 cpu a = .quiet b := by
  obtain ⟨l, hl, hread, hkind, -, hbytes⟩ := h
  have hbyte := hbytes 0 (Nat.succ_pos _)
  rw [Nat.add_zero, List.getElem?_cons_zero] at hbyte
  rw [read8_of_owns hl hread (.inr (.inr hkind)), hbyte, Option.getD_some]

/-- Operands of code are read as words. -/
theorem Code.read32 {w : Word} (h : m.Code a w.bytes) (cpu : Cpu) :
    m.read32 cpu a = .quiet (.ok w) := by
  obtain ⟨l, hl, hread, hkind, hsize, hbytes⟩ := h
  rw [Word.length_bytes] at hsize hbytes
  have h0 := hbytes 0 (by omega)
  rw [Nat.add_zero] at h0
  rw [read32_of_owns hl hread (.inr (.inr hkind)) hsize, Block.word?, h0, hbytes 1 (by omega),
    hbytes 2 (by omega), hbytes 3 (by omega)]
  exact congrArg (fun w => Logged.quiet (Except.ok w)) w.ofBytes_byteAt

end Memory

/-- Code is decoded where it is, if its operand has an address. -/
theorem Computer.instructionAt_of_code {c : Computer} {a : Address} {i : Instruction}
    {rest : List Byte} (h : c.memory.Code a (i.encode ++ rest))
    (hroom : i.opcode.hasOperand = true → a.toNat + 1 < UInt32.size) :
    (c.instructionAt a).value = .ok i := by
  have hcode : c.memory.Code a (i.opcode.byte :: i.operandBytes) := by
    rw [← Instruction.encode_eq]
    exact h.head
  rw [instructionAt, hcode.read8]
  simp only [Logged.quiet, Opcode.ofByte?_byte]
  by_cases hoperand : i.opcode.hasOperand
  · have hbytes : i.operandBytes = i.operand.bytes := if_pos hoperand
    rw [hbytes] at hcode
    have hsplit : c.memory.Code a ([i.opcode.byte] ++ i.operand.bytes) := hcode
    have hword : c.memory.Code (a + 1) i.operand.bytes :=
      hsplit.tail (by simp [Word.bytes]) (hroom hoperand)
    rw [if_pos hoperand, hword.read32]
    exact congrArg Except.ok i.ofOpcode_operand
  · rw [if_neg hoperand, ← Instruction.operand_eq_zero (Bool.not_eq_true _ ▸ hoperand),
      i.ofOpcode_operand]

/-! ## Writes off the system page -/

/-- Off the system page a write comes to the same whatever the processor is,
and leaves it as it is. -/
theorem Memory.write_off_page {m : Memory} {a : Address}
    (hoff : ∀ l, m.locate a .write = .ok l → l.region.kind ≠ .systemPage) (width : Width)
    (cpu cpu' : Cpu) (v : Word) :
    (m.write width cpu' a v).value = (m.write width cpu a v).value.map fun w => (w.1, cpu') := by
  by_cases h : ∃ l, m.Owns a l
  · obtain ⟨l, hl⟩ := h
    rw [write_of_owns hl, write_of_owns hl]
    by_cases hgranted : l.region.permissions.write = true
    · have hkind := hoff l (locate_eq_ok_iff.mpr ⟨hl, hgranted⟩)
      rw [if_pos hgranted, if_pos hgranted]
      split
      · rfl
      · cases hk : l.region.kind with
        | systemPage => contradiction
        | ram | vram | stack | rom =>
            cases width <;>
              simp [Region.write, Region.write8, Region.write32, hk, put, Logged.quiet, Except.map]
    · rw [if_neg hgranted, if_neg hgranted]
      split <;> rfl
  · have hnone : ∀ l, ¬ m.Owns a l := fun l hl => h ⟨l, hl⟩
    rw [write_of_not_owned hnone, write_of_not_owned hnone]
    rfl

/-! ## Operands and the accumulator -/

@[simp] theorem Width.kept_kept (width : Width) (v : Word) :
    width.kept (width.kept v) = width.kept v := by
  cases width with
  | byte => simp only [kept, Word.lowByte_ofByte]
  | word => rfl

namespace Cpu

variable (cpu : Cpu) (a b : Address) (v w : Word)

@[simp] theorem jump_jump : (cpu.jump a).jump b = cpu.jump b := rfl

@[simp] theorem width_jump : (cpu.jump a).width = cpu.width := rfl

@[simp] theorem accumulator_jump : (cpu.jump a).accumulator = cpu.accumulator := by
  unfold accumulator jump
  cases cpu.width <;> rfl

@[simp] theorem setAccumulator_jump :
    (cpu.jump a).setAccumulator v = (cpu.setAccumulator v).jump a := by
  unfold setAccumulator jump
  cases cpu.width <;> rfl

@[simp] theorem push_jump (width : Width) :
    (cpu.jump a).push width v = (cpu.push width v).jump a := by
  cases width <;> rfl

@[simp] theorem top_jump : (cpu.jump a).top = cpu.top := by
  obtain ⟨registers, ⟨bytes⟩, calls, width⟩ := cpu
  cases width <;> rfl

@[simp] theorem dropTop_jump : (cpu.jump a).dropTop = cpu.dropTop.jump a := by
  rw [dropTop_eq, dropTop_eq]
  rfl

@[simp] theorem width_setAccumulator : (cpu.setAccumulator v).width = cpu.width := rfl

@[simp] theorem accumulator_setAccumulator_eq_kept :
    (cpu.setAccumulator v).accumulator = cpu.width.kept v := by
  unfold accumulator setAccumulator
  cases cpu.width <;> rfl

/-- The accumulator keeps what it was set to last. -/
@[simp] theorem setAccumulator_setAccumulator :
    (cpu.setAccumulator v).setAccumulator w = cpu.setAccumulator w := by
  unfold setAccumulator
  cases cpu.width <;> rfl

/-- Pushing and setting the accumulator do not disturb one another. -/
theorem push_setAccumulator (width : Width) :
    (cpu.setAccumulator v).push width w = (cpu.push width w).setAccumulator v := by
  unfold setAccumulator
  cases width <;> rfl

@[simp] theorem width_push (width : Width) : (cpu.push width v).width = cpu.width := by
  cases width <;> rfl

@[simp] theorem top_setAccumulator : (cpu.setAccumulator v).top = cpu.top := by
  obtain ⟨registers, ⟨bytes⟩, calls, width⟩ := cpu
  cases width <;> rfl

@[simp] theorem dropTop_setAccumulator :
    (cpu.setAccumulator v).dropTop = cpu.dropTop.setAccumulator v := by
  rw [dropTop_eq, dropTop_eq]
  rfl

/-- What is pushed is on top, as far as its width goes. -/
@[simp] theorem top_push : (cpu.push cpu.width v).top = cpu.width.kept v := by
  obtain ⟨registers, ⟨bytes⟩, calls, width⟩ := cpu
  cases width with
  | byte => rfl
  | word => exact v.ofBytes_byteAt

/-- What is pushed is popped. -/
@[simp] theorem dropTop_push : (cpu.push cpu.width v).dropTop = cpu := by
  obtain ⟨registers, ⟨bytes⟩, calls, width⟩ := cpu
  cases width <;> rfl

end Cpu

/-! ## Steps -/

namespace Computer

variable {c d e : Computer}

/-- A step succeeds and leaves a machine, up to its display. -/
def StepsTo (c d : Computer) : Prop :=
  c.step.result = .ok () ∧ c.step.computer.SameOffDisplay d

/-- A run goes on with a step. -/
theorem StepsTo.after (h : d.StepsTo e) {k : Nat} (hbefore : (c.after k).SameOffDisplay d) :
    (c.after k).step.result = .ok () ∧ (c.after (k + 1)).SameOffDisplay e := by
  obtain ⟨hresult, hleft⟩ := hbefore.step
  rw [after_succ']
  exact ⟨hresult.trans h.1, hleft.trans h.2⟩

/-- A store that is carried out leaves what the write leaves. -/
theorem ends_str_of_write {memory : Memory} {cpu : Cpu}
    (hwrite : (c.memory.write c.cpu.width c.cpu.dropTop c.cpu.accumulator.toAddress
      c.cpu.top).value = .ok (memory, cpu)) :
    Instruction.str.execute.Ends c (.ok .next) { c.dropTop with memory, cpu } := by
  simp [Instruction.execute, hwrite]

/-- The machine behind instructions of some bytes and some cycles, with what
they made of its memory and its processor. -/
def behind (c : Computer) (size cycles : Nat) (memory : Memory) (cpu : Cpu) : Computer :=
  { c with
    memory
    cpu := cpu.jump (c.cpu.registers.pc + UInt32.ofNat size)
    cycles := c.cycles + cycles }

theorem behind_zero (c : Computer) : c.behind 0 0 c.memory c.cpu = c := by
  have hpc : c.cpu.registers.pc + UInt32.ofNat 0 = c.cpu.registers.pc := UInt32.add_zero _
  rw [behind, hpc]
  rfl

section

variable {size n : Nat} {memory memory' : Memory} {cpu cpu' : Cpu} {i : Instruction} {v : Word}

/-- Behind an instruction that does not jump comes the next one. -/
theorem stepsTo_behind {length : Nat} (hsize : i.size = length)
    (hfetch : ((c.behind size n memory cpu).instructionAt
      (c.cpu.registers.pc + UInt32.ofNat size)).value = .ok i)
    (hexecute : i.execute.Ends (c.behind size n memory cpu) (.ok .next)
      (c.behind size n memory' cpu')) :
    (c.behind size n memory cpu).StepsTo (c.behind (size + length) (n + 1) memory' cpu') := by
  obtain ⟨hok, hshown⟩ := step_of_executes hfetch hexecute
  have hcounted : (c.behind size n memory' cpu').counted i .next =
      c.behind (size + length) (n + 1) memory' cpu' := by
    rw [← hsize]
    simp only [behind, counted, UInt32.ofNat_add, ← UInt32.add_assoc, Cpu.jump_jump]
    rfl
  rw [← hcounted]
  exact ⟨hok, hshown.symm⟩

/-- A load of a constant, behind some instructions. -/
theorem stepsTo_ldi
    (hfetch : ((c.behind size n memory cpu).instructionAt
      (c.cpu.registers.pc + UInt32.ofNat size)).value = .ok (.ldi v)) :
    (c.behind size n memory cpu).StepsTo
      (c.behind (size + 5) (n + 1) memory (cpu.setAccumulator v)) := by
  refine stepsTo_behind rfl hfetch ?_
  simp [Instruction.execute, behind]

/-- A push, behind some instructions. -/
theorem stepsTo_push
    (hfetch : ((c.behind size n memory cpu).instructionAt
      (c.cpu.registers.pc + UInt32.ofNat size)).value = .ok .push) :
    (c.behind size n memory cpu).StepsTo
      (c.behind (size + 1) (n + 1) memory (cpu.push cpu.width cpu.accumulator)) := by
  refine stepsTo_behind rfl hfetch ?_
  simp [Instruction.execute, behind]

/-- A store that memory accepts, behind some instructions. -/
theorem stepsTo_str
    (hfetch : ((c.behind size n memory cpu).instructionAt
      (c.cpu.registers.pc + UInt32.ofNat size)).value = .ok .str)
    (hwrite : (memory.write cpu.width (cpu.dropTop.jump (c.cpu.registers.pc + UInt32.ofNat size))
      cpu.accumulator.toAddress cpu.top).value =
        .ok (memory', cpu'.jump (c.cpu.registers.pc + UInt32.ofNat size))) :
    (c.behind size n memory cpu).StepsTo (c.behind (size + 1) (n + 1) memory' cpu') := by
  refine stepsTo_behind rfl hfetch (ends_str_of_write ?_)
  simpa [behind] using hwrite

/-- A store that is refused faults, and memory stays as it is. -/
theorem step_str_of_refused {cause : MemoryFault}
    (hfetch : ((c.behind size n memory cpu).instructionAt
      (c.cpu.registers.pc + UInt32.ofNat size)).value = .ok .str)
    (hwrite : (memory.write cpu.width (cpu.dropTop.jump (c.cpu.registers.pc + UInt32.ofNat size))
      cpu.accumulator.toAddress cpu.top).value = .error cause) :
    (c.behind size n memory cpu).step.result = .error (.exception (.memory cause)) ∧
      (c.behind size n memory cpu).step.computer.memory = memory := by
  have hrefused : ((c.behind size n memory cpu).memory.write (c.behind size n memory cpu).cpu.width
      (c.behind size n memory cpu).cpu.dropTop
      (c.behind size n memory cpu).cpu.accumulator.toAddress
      (c.behind size n memory cpu).cpu.top).value = .error cause := by
    simpa [behind] using hwrite
  obtain ⟨hresult, hleft⟩ := Action.ends_step_error.mpr
    (.inr ⟨.str, hfetch, .storeRefused hrefused⟩)
  refine ⟨hresult, ?_⟩
  show (StackRisc.step.run (c.behind size n memory cpu)).computer.memory = memory
  rw [hleft]
  rfl

end

/-- Four steps come to one write of a value at an address.  If it is carried
out they leave the memory that it leaves, the address in the accumulator, and
the program counter behind twelve bytes; the stacks and the carry are as
before.  If it is refused the last of them faults as the write does. -/
def StoresInFour (c : Computer) (address value : Word) : Prop :=
  match (c.memory.write c.cpu.width c.cpu (c.cpu.width.kept address).toAddress
    (c.cpu.width.kept value)).value with
  | .ok (memory, _) =>
    (∀ k < 4, (c.after k).step.result = .ok ()) ∧ (c.after 4).memory = memory ∧
      (c.after 4).cpu = (c.cpu.setAccumulator address).jump (c.cpu.registers.pc + 12) ∧
      (c.after 4).cycles = c.cycles + 4
  | .error cause =>
    (∀ k < 3, (c.after k).step.result = .ok ()) ∧
      (c.after 3).step.result = .error (.exception (.memory cause)) ∧
      (c.after 4).memory = c.memory

/-- The code of a store is stepped through, if its bytes have addresses. -/
theorem storesInFour_of_code {address value : Word}
    (hcode : c.memory.Code c.cpu.registers.pc
      ([Instruction.ldi value, .push, .ldi address, .str].flatMap Instruction.encode))
    (hroom : c.cpu.registers.pc.toNat + 12 ≤ UInt32.size)
    (hoff : ∀ l, c.memory.locate (c.cpu.width.kept address).toAddress .write = .ok l →
      l.region.kind ≠ .systemPage) : c.StoresInFour address value := by
  have hfetch {front behind : List Byte} {i : Instruction} {n : Nat} {cpu : Cpu}
      (hsplit : c.memory.Code c.cpu.registers.pc (front ++ (i.encode ++ behind)))
      (hfront : front.length + i.size ≤ 12) :
      ((c.behind front.length n c.memory cpu).instructionAt
        (c.cpu.registers.pc + UInt32.ofNat front.length)).value = .ok i := by
    have hsize := i.size_pos
    refine instructionAt_of_code (hsplit.tail ?_ (by omega)) fun hoperand => ?_
    · rw [Instruction.encode_eq]
      exact List.cons_ne_nil _ _
    · have hlong : i.size = 5 := by
        rw [Instruction.size_eq, Instruction.operandBytes, if_pos hoperand, Word.length_bytes]
      rw [toNat_add_ofNat (by omega)]
      omega
  have hldi (v : Word) : (Instruction.ldi v).size = 5 := rfl
  have hbare : Instruction.push.size = 1 ∧ Instruction.str.size = 1 := ⟨rfl, rfl⟩
  let loaded := c.cpu.setAccumulator value
  let pushed := loaded.push loaded.width loaded.accumulator
  let ready := pushed.setAccumulator address
  let target := c.cpu.setAccumulator address
  have hvalue : (c.behind 0 0 c.memory c.cpu).StepsTo (c.behind 5 1 c.memory loaded) :=
    stepsTo_ldi (@hfetch [] _ _ _ _ hcode (by simp [hldi]))
  have hpush : (c.behind 5 1 c.memory loaded).StepsTo (c.behind 6 2 c.memory pushed) :=
    stepsTo_push (@hfetch (Instruction.ldi value).encode _ _ _ _ hcode (by simp [hldi, hbare]))
  have haddress : (c.behind 6 2 c.memory pushed).StepsTo (c.behind 11 3 c.memory ready) :=
    stepsTo_ldi (@hfetch ([Instruction.ldi value, .push].flatMap Instruction.encode) _ _ _ _ hcode
      (by simp [hldi, hbare]))
  have hstore : ((c.behind 11 3 c.memory ready).instructionAt
      (c.cpu.registers.pc + UInt32.ofNat 11)).value = .ok .str :=
    @hfetch ([Instruction.ldi value, .push, .ldi address].flatMap Instruction.encode) _ _ _ _ hcode
      (by simp [hldi, hbare])
  rw [behind_zero] at hvalue
  obtain ⟨hok₀, hsame₁⟩ := hvalue.after (c := c) (k := 0) (.refl c)
  obtain ⟨hok₁, hsame₂⟩ := hpush.after hsame₁
  obtain ⟨hok₂, hsame₃⟩ := haddress.after hsame₂
  have hoks : ∀ k < 3, (c.after k).step.result = .ok () := by
    intro k hk
    obtain rfl | rfl | rfl : k = 0 ∨ k = 1 ∨ k = 2 := by omega
    · exact hok₀
    · exact hok₁
    · exact hok₂
  -- What was pushed is popped again, so the write is that of the machine at the start.
  have hready :
      ready = (c.cpu.push c.cpu.width (c.cpu.width.kept value)).setAccumulator address := by
    simp [ready, pushed, loaded, Cpu.push_setAccumulator]
  have hwrite : (c.memory.write ready.width
      (ready.dropTop.jump (c.cpu.registers.pc + UInt32.ofNat 11)) ready.accumulator.toAddress
      ready.top).value =
        (c.memory.write c.cpu.width c.cpu (c.cpu.width.kept address).toAddress
          (c.cpu.width.kept value)).value.map
            fun w => (w.1, target.jump (c.cpu.registers.pc + UInt32.ofNat 11)) := by
    rw [hready]
    simpa [target] using c.memory.write_off_page hoff c.cpu.width c.cpu
      (target.jump (c.cpu.registers.pc + UInt32.ofNat 11)) (c.cpu.width.kept value)
  unfold StoresInFour
  cases houtcome : (c.memory.write c.cpu.width c.cpu (c.cpu.width.kept address).toAddress
    (c.cpu.width.kept value)).value with
  | error cause =>
      rw [houtcome] at hwrite
      obtain ⟨hresult, hleft⟩ := hsame₃.step
      obtain ⟨hfault, hmemory⟩ := step_str_of_refused hstore hwrite
      refine ⟨hoks, hresult.trans hfault, ?_⟩
      rw [after_succ', hleft.memory_eq, hmemory]
  | ok written =>
      rw [houtcome] at hwrite
      obtain ⟨hok₃, hsame₄⟩ := (stepsTo_str hstore hwrite).after hsame₃
      refine ⟨fun k hk => ?_, hsame₄.memory_eq, hsame₄.cpu_eq, hsame₄.cycles_eq⟩
      rcases Nat.lt_succ_iff_lt_or_eq.mp hk with hk | rfl
      · exact hoks k hk
      · exact hok₃

end Computer

end StackRisc
