import StackRisc.Proofs.Computer.Control
import StackRisc.Proofs.Computer.Processor
import StackRisc.Proofs.Memory.Containment

/-!
# StackRisc.Proofs.Computer.Widths

One width at a time is in effect.  What a step does to the operand stack and
the accumulators it does in the width it starts in: it leaves the accumulator
of the other width alone, and words do not break up words (`Cpu.OneWidth`).
Only the service that toggles the width changes it
(`Computer.one_width_in_effect`).
-/

namespace StackRisc

theorem Width.toggle_ne (width : Width) : width.toggle ≠ width := by cases width <;> decide

/-! ## Processors -/

/-- From one processor to the other nothing was done in the width that is not
in effect. -/
structure Cpu.OneWidth (cpu cpu' : Cpu) : Prop where
  width_eq : cpu'.width = cpu.width
  wide_eq : cpu.width = .byte → cpu'.registers.wide = cpu.registers.wide
  narrow_eq : cpu.width = .word → cpu'.registers.narrow = cpu.registers.narrow
  aligned : cpu.width = .word → cpu'.stack.size % 4 = cpu.stack.size % 4

namespace Cpu

variable {cpu cpu' cpu'' : Cpu}

theorem OneWidth.refl (cpu : Cpu) : cpu.OneWidth cpu :=
  ⟨rfl, fun _ => rfl, fun _ => rfl, fun _ => rfl⟩

/-- The width of values is kept step by step. -/
theorem OneWidth.trans (h : cpu.OneWidth cpu') (h' : cpu'.OneWidth cpu'') :
    cpu.OneWidth cpu'' where
  width_eq := h'.width_eq.trans h.width_eq
  wide_eq hbyte := (h'.wide_eq (h.width_eq.trans hbyte)).trans (h.wide_eq hbyte)
  narrow_eq hword := (h'.narrow_eq (h.width_eq.trans hword)).trans (h.narrow_eq hword)
  aligned hword := (h'.aligned (h.width_eq.trans hword)).trans (h.aligned hword)

/-- A word is popped whole or not at all. -/
theorem oneWidth_dropTop (cpu : Cpu) : cpu.OneWidth cpu.dropTop := by
  rw [dropTop_eq]
  refine ⟨rfl, fun _ => rfl, fun _ => rfl, fun hword => ?_⟩
  simp only [OperandStack.size, hword, Width.bytes, List.length_drop]
  split <;> omega

/-- A value is pushed in the width in effect. -/
theorem oneWidth_push (cpu : Cpu) (v : Word) : cpu.OneWidth (cpu.push cpu.width v) := by
  cases hwidth : cpu.width with
  | byte =>
      exact ⟨rfl, fun _ => rfl, fun _ => rfl, fun hword => absurd (hwidth.symm.trans hword) nofun⟩
  | word =>
      refine ⟨rfl, fun _ => rfl, fun _ => rfl, fun _ => ?_⟩
      simp only [push, OperandStack.size, OperandStack.pushWord, List.length_append,
        List.length_reverse, Word.length_bytes]
      omega

theorem oneWidth_setAccumulator (cpu : Cpu) (v : Word) : cpu.OneWidth (cpu.setAccumulator v) := by
  refine ⟨rfl, fun hbyte => ?_, fun hword => ?_, fun _ => rfl⟩
  · simp only [setAccumulator, hbyte, Registers.set]
  · simp only [setAccumulator, hword, Registers.set]

/-- The system page does not reach the width. -/
theorem SameOffPage.oneWidth (h : cpu.SameOffPage cpu') : cpu.OneWidth cpu' := by
  obtain ⟨hstack, -, hnarrow, hwide, hwidth⟩ := h.off_page
  exact ⟨hwidth, fun _ => hwide, fun _ => hnarrow, fun _ => by rw [hstack]⟩

/-- All that programs do to a processor keeps its values in one width, unless
they switch it. -/
theorem stable_oneWidth : Stable OneWidth where
  refl := .refl
  trans := .trans
  dropTop := oneWidth_dropTop
  push := oneWidth_push
  setAccumulator := oneWidth_setAccumulator
  page := SameOffPage.oneWidth

/-- Calls and returns have nothing to do with the width. -/
theorem oneWidth_jump_withCalls (cpu : Cpu) (calls : CallStack) (a : Address) :
    cpu.OneWidth ((cpu.withCalls calls).jump a) :=
  ⟨rfl, fun _ => rfl, fun _ => rfl, fun _ => rfl⟩

theorem oneWidth_withCalls (cpu : Cpu) (calls : CallStack) : cpu.OneWidth (cpu.withCalls calls) :=
  ⟨rfl, fun _ => rfl, fun _ => rfl, fun _ => rfl⟩

end Cpu

/-! ## Steps -/

open StackRisc.Action

namespace Computer

variable {c d : Computer}

/-- Every instruction works in the width that it starts in. -/
theorem oneWidth_execute {i : Instruction} {r : Except Fault Flow}
    (htoggle : ¬ (i = .sys ∧ c.syscalls.get? c.cpu.accumulator = some .toggleWidth))
    (h : i.execute.Ends c r d) : c.cpu.OneWidth d.cpu := by
  cases i with
  | bge target =>
      have hends := ends_branch.mp h
      split at hends
      · obtain ⟨-, rfl⟩ := hends
        exact c.cpu.oneWidth_jump_withCalls _ _
      · obtain ⟨-, rfl⟩ := hends
        exact .refl c.cpu
  | ret =>
      have hends := ends_returnFromCall.mp h
      split at hends
      · obtain ⟨-, rfl⟩ := hends
        exact .refl c.cpu
      · obtain ⟨-, rfl⟩ := hends
        exact c.cpu.oneWidth_jump_withCalls _ _
  | cpop =>
      obtain ⟨-, rfl⟩ := ends_dropCall.mp h
      exact c.cpu.oneWidth_withCalls _
  | sys =>
      rcases ends_sys_cases h with ⟨-, rfl⟩ | ⟨service, r', hservice, hperform⟩
      · exact .refl c.cpu
      · refine keepsCpu_perform Cpu.stable_oneWidth (fun hsame => htoggle ⟨rfl, ?_⟩) hperform
        rw [hservice, hsame]
  | ldi | cmp | add | push | pop | ldr | str | clc | sec | hlt | grt | sub | mul | div | flp | les
    | lshft | rshft | iret =>
      exact keepsCpu_execute Cpu.stable_oneWidth (by simp [Instruction.opcode]) h

/-- Every step works in the width that it starts in, unless it toggles it. -/
theorem oneWidth_step (htoggle : ¬ c.Calls .toggleWidth) :
    c.cpu.OneWidth c.step.computer.cpu := by
  rcases c.step_cpu_cases with ⟨-, hsame⟩ | ⟨i, r, e, hfetch, hexecute, hpage⟩
  · rw [hsame]
    exact .refl c.cpu
  · refine .trans (oneWidth_execute (fun ⟨hsys, hservice⟩ => htoggle ⟨?_, hservice⟩) hexecute)
      hpage.oneWidth
    rw [hsys] at hfetch
    exact opcode_of_instructionAt hfetch

/-- The service that toggles the width changes nothing else of the processor. -/
theorem cpu_step_of_toggleWidth (h : c.Calls .toggleWidth) :
    c.step.computer.cpu =
      Cpu.jump { c.cpu with width := c.cpu.width.toggle } (c.cpu.registers.pc + 1) := by
  have hfetch : (c.instructionAt c.cpu.registers.pc).value = .ok .sys :=
    (instructionAt_eq_ok_iff rfl).mpr h.1
  have hexecute : Instruction.sys.execute.Ends c (.ok .next)
      { c with cpu := { c.cpu with width := c.cpu.width.toggle } } := by
    simp [Instruction.execute, syscall, h.2, Syscall.perform]
  exact (step_of_executes hfetch hexecute).2.cpu_eq.symm

/-- One width is in effect.  Whatever its result, a step in the narrow width
leaves the wide accumulator as it is, and a step in the wide width leaves the
narrow accumulator as it is and takes from the operand stack, or adds to it,
whole words.  The width changes exactly if the instruction is the call of the
service that toggles it, which succeeds. -/
theorem one_width_in_effect (c : Computer) (hservices : c.syscalls = .standard) :
    (c.cpu.width = .byte → c.step.computer.cpu.registers.wide = c.cpu.registers.wide) ∧
    (c.cpu.width = .word → c.step.computer.cpu.registers.narrow = c.cpu.registers.narrow ∧
      c.step.computer.cpu.stack.size % 4 = c.cpu.stack.size % 4) ∧
    (c.step.computer.cpu.width ≠ c.cpu.width ↔ c.opcode? = some .sys ∧ c.cpu.accumulator = 5) ∧
    (c.step.computer.cpu.width ≠ c.cpu.width → c.step.result = .ok ()) := by
  have hcalls : c.Calls .toggleWidth ↔ c.opcode? = some .sys ∧ c.cpu.accumulator = 5 := by
    rw [Calls, hservices, SyscallTable.get?_standard_eq_toggleWidth_iff]
  by_cases htoggle : c.Calls .toggleWidth
  · have hwidth : c.step.computer.cpu.width ≠ c.cpu.width := by
      rw [cpu_step_of_toggleWidth htoggle]
      exact c.cpu.width.toggle_ne
    have hok : c.step.result = .ok () := step_ok_of_calls htoggle (by decide)
    refine ⟨fun _ => ?_, fun _ => ?_, iff_of_true hwidth (hcalls.mp htoggle), fun _ => hok⟩
    · rw [cpu_step_of_toggleWidth htoggle]
      rfl
    · rw [cpu_step_of_toggleWidth htoggle]
      exact ⟨rfl, rfl⟩
  · have h := oneWidth_step htoggle
    refine ⟨h.wide_eq, fun hword => ⟨h.narrow_eq hword, h.aligned hword⟩,
      iff_of_false (not_not_intro h.width_eq) (mt hcalls.mpr htoggle), fun hne => ?_⟩
    exact absurd h.width_eq hne

/-- A machine about to divide by zero, with a byte below the word on its
operand stack. -/
def dividing : Computer where
  cpu := { registers := { narrow := 3, pc := 12 }, stack := ⟨[1, 2, 3, 4, 5]⟩, width := .word }
  memory := .ofLayout ⟨4, 4, 4, 0⟩ [Opcode.div.byte]
  files := .empty

/-- The division takes a whole word and faults. -/
theorem one_width_in_division :
    dividing.syscalls = .standard ∧ dividing.cpu.width = .word ∧
    dividing.step.result = .error (.exception .divisionByZero) ∧
    dividing.step.computer.cpu.stack.bytes = [5] ∧
    dividing.step.computer.cpu.registers.narrow = 3 ∧
    dividing.step.computer.cpu.stack.size % 4 = 5 % 4 := by
  obtain ⟨-, hword, -, -⟩ := one_width_in_effect dividing rfl
  obtain ⟨hnarrow, haligned⟩ := hword rfl
  exact ⟨rfl, rfl, rfl, rfl, hnarrow, haligned⟩

end Computer

end StackRisc
