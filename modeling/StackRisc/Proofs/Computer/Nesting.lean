import StackRisc.Proofs.Computer.AddressMap
import StackRisc.Proofs.Computer.PositionIndependence
import StackRisc.Proofs.Computer.Processor
import StackRisc.Proofs.Memory.Containment

/-!
# StackRisc.Proofs.Computer.Nesting

Calls and returns nest.  An instruction enters a call, leaves the innermost
one or forgets it, or it has nothing to do with calls (`CallEvent`); no
program reaches the call stack by other means, not even through the system
page (`Computer.frames_step`).  So the return addresses at any place of a run
are what is left of its events when they are replayed (`Computer.Traces`), and
a return that is taken continues behind the branch that entered the innermost
call (`Computer.calls_nest`).
-/

namespace StackRisc

/-! ## Events -/

/-- What an instruction does to the call stack. -/
inductive CallEvent where
  /-- It enters a call and saves where to come back. -/
  | enter (back : Address)
  /-- It leaves the innermost call. -/
  | leave
  /-- It forgets the innermost call. -/
  | drop
  deriving DecidableEq, Repr

namespace CallEvent

/-- The return addresses after an event, innermost first. -/
def apply (frames : List Address) : CallEvent → List Address
  | enter back => back :: frames
  | leave | drop => frames.tail

/-- The return addresses that are left of events, the last one in the first
one out. -/
def replay (events : List CallEvent) : List Address := events.foldl apply []

/-- Events are replayed one after the other. -/
theorem replay_append (events events' : List CallEvent) :
    replay (events ++ events') = events'.foldl apply (replay events) :=
  List.foldl_append

end CallEvent

/-- What an instruction does to the call stack of a processor.  A branch is
taken with a carry of one, a return with any carry but zero. -/
def Instruction.callEvent? (cpu : Cpu) : Instruction → Option CallEvent
  | bge _ => if cpu.registers.carry = 1 then some (.enter (cpu.registers.pc + 5)) else none
  | ret => if cpu.registers.carry = 0 then none else some .leave
  | cpop => some .drop
  | _ => none

namespace Instruction

variable (cpu : Cpu)

@[simp] theorem callEvent?_bge (target : Address) :
    (bge target).callEvent? cpu =
      if cpu.registers.carry = 1 then some (.enter (cpu.registers.pc + 5)) else none := rfl

@[simp] theorem callEvent?_ret :
    ret.callEvent? cpu = if cpu.registers.carry = 0 then none else some .leave := rfl

@[simp] theorem callEvent?_cpop : cpop.callEvent? cpu = some .drop := rfl

/-- The other instructions have nothing to do with calls. -/
theorem callEvent?_eq_none {i : Instruction} (h : i.opcode ∉ [Opcode.bge, .ret, .cpop]) :
    i.callEvent? cpu = none := by
  cases i with
  | bge | ret | cpop => simp [opcode] at h
  | _ => rfl

/-- Only a branch that is taken enters a call. -/
theorem callEvent?_eq_enter_iff {i : Instruction} {a : Address} :
    i.callEvent? cpu = some (.enter a) ↔
      (∃ target, i = bge target) ∧ cpu.registers.carry = 1 ∧ cpu.registers.pc + 5 = a := by
  by_cases h : i.opcode ∈ [Opcode.bge, .ret, .cpop]
  · cases i with
    | bge | ret | cpop => simp
    | _ => simp [opcode] at h
  · rw [callEvent?_eq_none cpu h]
    refine iff_of_false (Option.some_ne_none _).symm ?_
    rintro ⟨⟨target, rfl⟩, -⟩
    simp [opcode] at h

end Instruction

namespace Computer

/-- What the instruction at the program counter does to the call stack. -/
def callEvent? (c : Computer) : Option CallEvent :=
  match (c.instructionAt c.cpu.registers.pc).value with
  | .ok i => i.callEvent? c.cpu
  | .error _ => none

/-- What the instructions of machines do to the call stack, one after the
other. -/
def callEvents (seen : List Computer) : List CallEvent := seen.filterMap callEvent?

variable {c d e : Computer} {seen front back : List Computer}

/-- The events of one more step come last. -/
theorem callEvents_concat (seen : List Computer) (d : Computer) :
    callEvents (seen ++ [d]) = callEvents seen ++ d.callEvent?.toList := by
  cases h : d.callEvent? <;> simp [callEvents, h]

/-- One more step replays its own event. -/
theorem replay_callEvents_concat (seen : List Computer) (d : Computer) :
    CallEvent.replay (callEvents (seen ++ [d])) =
      d.callEvent?.toList.foldl CallEvent.apply (CallEvent.replay (callEvents seen)) := by
  rw [callEvents_concat, CallEvent.replay_append]

/-- A call is entered by a branch that is taken. -/
theorem callEvent?_eq_enter_iff {a : Address} :
    c.callEvent? = some (.enter a) ↔
      (∃ target, (c.instructionAt c.cpu.registers.pc).value = .ok (.bge target)) ∧
        c.cpu.registers.carry = 1 ∧ c.cpu.registers.pc + 5 = a := by
  unfold callEvent?
  cases h : (c.instructionAt c.cpu.registers.pc).value with
  | error fault => simp
  | ok i => simp [Instruction.callEvent?_eq_enter_iff]

/-! ## Steps -/

/-- Moving operands and writing to memory leave the call stack alone. -/
theorem stable_calls_eq : Cpu.Stable fun cpu cpu' => cpu'.calls = cpu.calls where
  refl _ := rfl
  trans h h' := h'.trans h
  dropTop cpu := by rw [Cpu.dropTop_eq]
  push cpu v := by cases cpu.width <;> rfl
  setAccumulator _ _ := rfl
  page h := h.off_page.2.1

/-- No service touches the calls. -/
theorem calls_perform {service : Syscall} {r : Except Fault Unit}
    (h : service.perform.Ends c r d) : d.cpu.calls = c.cpu.calls := by
  by_cases htoggle : service = .toggleWidth
  · subst htoggle
    obtain ⟨-, rfl⟩ := h
    rfl
  · exact Action.keepsCpu_perform stable_calls_eq htoggle h

/-- An instruction does to the call stack what its event says, however it ends. -/
theorem frames_execute {i : Instruction} {r : Except Fault Flow} (h : i.execute.Ends c r d) :
    d.cpu.calls.frames =
      (i.callEvent? c.cpu).toList.foldl CallEvent.apply c.cpu.calls.frames := by
  cases i with
  | bge target =>
      have hends := Action.ends_branch.mp h
      split at hends
      · next hcarry =>
        obtain ⟨-, rfl⟩ := hends
        simp [hcarry, CallEvent.apply, Cpu.jump, Cpu.call, Cpu.withCalls, CallStack.push]
      · next hcarry =>
        obtain ⟨-, rfl⟩ := hends
        simp [hcarry]
  | ret =>
      have hends := Action.ends_returnFromCall.mp h
      split at hends
      · next hcarry =>
        obtain ⟨-, rfl⟩ := hends
        simp [hcarry]
      · next hcarry =>
        obtain ⟨-, rfl⟩ := hends
        simp [hcarry, CallEvent.apply, Cpu.jump, Cpu.leave, Cpu.withCalls]
  | cpop =>
      obtain ⟨-, rfl⟩ := Action.ends_dropCall.mp h
      rfl
  | sys =>
      rcases Action.ends_sys_cases h with ⟨-, rfl⟩ | ⟨service, r', -, hperform⟩
      · rfl
      · exact congrArg CallStack.frames (calls_perform hperform)
  | ldi | cmp | add | push | pop | ldr | str | clc | sec | hlt | grt | sub | mul | div | flp | les
    | lshft | rshft | iret =>
      exact congrArg CallStack.frames
        (Action.keepsCpu_execute stable_calls_eq (by simp [Instruction.opcode]) h)

/-- A step does to the call stack what the event of its instruction says,
whether it succeeds or not. -/
theorem frames_step (c : Computer) :
    c.step.computer.cpu.calls.frames =
      c.callEvent?.toList.foldl CallEvent.apply c.cpu.calls.frames := by
  rcases c.step_cpu_cases with ⟨⟨fault, hfetch⟩, hsame⟩ | ⟨i, r, e, hfetch, hexecute, hpage⟩
  · rw [callEvent?, hfetch, hsame]
    rfl
  · rw [callEvent?, hfetch, hpage.off_page.2.1]
    exact frames_execute hexecute

/-- A branch that is taken continues at its target, counted from the program origin. -/
theorem pc_step_of_branch {target : Address}
    (hfetch : (c.instructionAt c.cpu.registers.pc).value = .ok (.bge target))
    (hcarry : c.cpu.registers.carry = 1) :
    c.step.computer.cpu.registers.pc = c.memory.origin + target := by
  have hexecute : (Instruction.bge target).execute.Ends c (.ok .jump)
      { c with cpu := (c.cpu.call 5).jump (c.memory.origin + target) } := by
    rw [Instruction.execute, Action.ends_branch, if_pos hcarry]
    exact ⟨rfl, rfl⟩
  rw [← (step_of_executes hfetch hexecute).2.cpu_eq]
  rfl

/-- A return that is taken continues at the innermost return address, or at
address 0 if there is none. -/
theorem pc_step_of_return (hfetch : (c.instructionAt c.cpu.registers.pc).value = .ok .ret)
    (hcarry : c.cpu.registers.carry ≠ 0) :
    c.step.computer.cpu.registers.pc = c.cpu.calls.frames.headD 0 := by
  have hexecute : Instruction.ret.execute.Ends c (.ok .jump)
      { c with cpu := c.cpu.leave.jump (c.cpu.calls.frames.headD 0) } := by
    rw [Instruction.execute, Action.ends_returnFromCall, if_neg hcarry]
    exact ⟨rfl, rfl⟩
  rw [← (step_of_executes hfetch hexecute).2.cpu_eq]
  rfl

/-! ## Runs -/

/-- A run, with the machines before each of its steps.  As in `Reaches` the
steps may fault, and between two of them the host may change the files and
take frames from the display. -/
inductive Traces (c : Computer) : List Computer → Computer → Prop
  | refl : Traces c [] c
  | step {seen : List Computer} {d : Computer} (h : Traces c seen d) :
      Traces c (seen ++ [d]) d.step.computer
  | host {seen : List Computer} {d : Computer} (h : Traces c seen d) (files : FileSystem)
      (link : Option DisplayLink) : Traces c seen { d with files, link }

/-- What a run traces, it reaches. -/
theorem Traces.reaches (h : c.Traces seen d) : c.Reaches d := by
  induction h with
  | refl => exact .refl
  | step _ ih => exact ih.step
  | host _ files link ih => exact ih.host files link

/-- The machines before the steps of a run were reached by its earlier steps. -/
theorem Traces.before (h : c.Traces seen d) (hseen : seen = front ++ e :: back) :
    c.Traces front e := by
  induction h generalizing back with
  | refl => simp at hseen
  | @step seen d h ih =>
      rcases List.eq_nil_or_concat back with rfl | ⟨back, last, rfl⟩
      · obtain ⟨rfl, rfl⟩ : seen = front ∧ d = e := by simpa using hseen
        exact h
      · have hconcat : seen ++ [d] = (front ++ e :: back) ++ [last] := by simpa using hseen
        exact ih (List.append_inj_left' hconcat rfl)
  | host _ files link ih => exact ih hseen

/-- The return addresses at a place of a run are what is left of its events. -/
theorem Traces.frames_eq (h : c.Traces seen d) (hstart : c.cpu.calls.frames = []) :
    d.cpu.calls.frames = CallEvent.replay (callEvents seen) := by
  induction h with
  | refl => exact hstart
  | step _ ih => rw [frames_step, replay_callEvents_concat, ih]
  | host _ files link ih => exact ih

/-- Each return address was saved by the event that entered its call, and has
been there with all below it since. -/
theorem exists_enter_of_suffix {a : Address} {rest : List Address}
    (h : a :: rest <:+ CallEvent.replay (callEvents seen)) :
    ∃ front e back, seen = front ++ e :: back ∧ e.callEvent? = some (.enter a) ∧
      CallEvent.replay (callEvents front) = rest ∧
      ∀ later, later <+: back →
        a :: rest <:+ CallEvent.replay (callEvents (front ++ e :: later)) := by
  induction seen using List.reverseRecOn with
  | nil => simp [callEvents, CallEvent.replay] at h
  | append_singleton seen d ih =>
      -- Below what `d` changes, the return addresses are those from before.
      have earlier (hbelow : a :: rest <:+ CallEvent.replay (callEvents seen)) :
          ∃ front e back, seen ++ [d] = front ++ e :: back ∧ e.callEvent? = some (.enter a) ∧
            CallEvent.replay (callEvents front) = rest ∧
            ∀ later, later <+: back →
              a :: rest <:+ CallEvent.replay (callEvents (front ++ e :: later)) := by
        obtain ⟨front, e, back, rfl, henter, hrest, hkept⟩ := ih hbelow
        refine ⟨front, e, back ++ [d], by simp, henter, hrest, fun later hlater => ?_⟩
        rcases List.prefix_concat_iff.mp hlater with rfl | hprefix
        · simpa using h
        · exact hkept later hprefix
      rw [replay_callEvents_concat] at h
      cases hevent : d.callEvent? with
      | none =>
          rw [hevent] at h
          exact earlier h
      | some event =>
          rw [hevent] at h
          cases event with
          | enter b =>
              rcases List.suffix_cons_iff.mp h with hnew | hbelow
              · obtain ⟨rfl, rfl⟩ := List.cons.inj hnew
                refine ⟨seen, d, [], rfl, hevent, rfl, fun later hlater => ?_⟩
                rw [List.prefix_nil.mp hlater, replay_callEvents_concat, hevent]
                exact List.suffix_rfl
              · exact earlier hbelow
          | leave | drop => exact earlier (h.trans (List.tail_suffix _))

/-- The innermost return address lies behind a branch that was taken, and has
been there with all below it since. -/
theorem Traces.exists_branch (h : c.Traces seen d) (hstart : c.cpu.calls.frames = [])
    (hframes : d.cpu.calls.frames ≠ []) :
    ∃ front e back, seen = front ++ e :: back ∧
      (∃ target, (e.instructionAt e.cpu.registers.pc).value = .ok (.bge target)) ∧
      e.cpu.registers.carry = 1 ∧
      d.cpu.calls.frames = (e.cpu.registers.pc + 5) :: e.cpu.calls.frames ∧
      ∀ between ∈ back, d.cpu.calls.frames <:+ between.cpu.calls.frames := by
  obtain ⟨a, rest, hcons⟩ := List.exists_cons_of_ne_nil hframes
  have hreplay : CallEvent.replay (callEvents seen) = a :: rest :=
    (h.frames_eq hstart).symm.trans hcons
  have hsuffix : a :: rest <:+ CallEvent.replay (callEvents seen) := hreplay ▸ List.suffix_rfl
  obtain ⟨front, e, back, hseen, henter, hrest, hkept⟩ := exists_enter_of_suffix hsuffix
  obtain ⟨hfetch, hcarry, hback⟩ := callEvent?_eq_enter_iff.mp henter
  have hbelow : e.cpu.calls.frames = rest := ((h.before hseen).frames_eq hstart).trans hrest
  refine ⟨front, e, back, hseen, hfetch, hcarry, by rw [hcons, hback, hbelow],
    fun between hbetween => ?_⟩
  obtain ⟨later, rear, rfl⟩ := List.append_of_mem hbetween
  have hsplit : seen = (front ++ e :: later) ++ between :: rear := by simp [hseen]
  rw [hcons, (h.before hsplit).frames_eq hstart]
  exact hkept later (List.prefix_append later _)

variable {config : Config} {image : List Byte}

/-- Calls and returns nest.  At every place of every run of a loaded image the
call stack is what the branches, returns and drops before it have left of it,
the last one in the first one out: a branch that is taken saves the address
behind it, a return that is taken continues at the innermost address saved, or
at 0 if there is none, and no other instruction changes the call stack,
whether it faults or not.  So a return that is taken continues behind the
branch that entered the innermost call. -/
theorem calls_nest (hload : load config image = .ok c) (h : c.Traces seen d) :
    d.cpu.calls.frames = CallEvent.replay (callEvents seen) ∧
    (∀ target, (d.instructionAt d.cpu.registers.pc).value = .ok (.bge target) →
      d.cpu.registers.carry = 1 →
      d.step.computer.cpu.calls.frames = (d.cpu.registers.pc + 5) :: d.cpu.calls.frames ∧
      d.step.computer.cpu.registers.pc = c.memory.origin + target) ∧
    ((d.instructionAt d.cpu.registers.pc).value = .ok .ret → d.cpu.registers.carry ≠ 0 →
      d.step.computer.cpu.calls.frames = d.cpu.calls.frames.tail ∧
      d.step.computer.cpu.registers.pc = d.cpu.calls.frames.headD 0 ∧
      (d.cpu.calls.frames ≠ [] → ∃ front e back, seen = front ++ e :: back ∧
        (∃ target, (e.instructionAt e.cpu.registers.pc).value = .ok (.bge target)) ∧
        e.cpu.registers.carry = 1 ∧
        d.cpu.calls.frames = (e.cpu.registers.pc + 5) :: e.cpu.calls.frames ∧
        (∀ between ∈ back, d.cpu.calls.frames <:+ between.cpu.calls.frames) ∧
        d.step.computer.cpu.registers.pc = e.cpu.registers.pc + 5)) ∧
    ((d.instructionAt d.cpu.registers.pc).value = .ok .cpop →
      d.step.computer.cpu.calls.frames = d.cpu.calls.frames.tail) ∧
    (d.callEvent? = none → d.step.computer.cpu.calls.frames = d.cpu.calls.frames) := by
  have hstart : c.cpu.calls.frames = [] := by
    rw [eq_ofImage_of_load hload]
    rfl
  have frames_of_event {event : CallEvent} (hevent : d.callEvent? = some event) :
      d.step.computer.cpu.calls.frames = event.apply d.cpu.calls.frames := by
    rw [frames_step, hevent]
    rfl
  refine ⟨h.frames_eq hstart, fun target hfetch hcarry => ⟨?_, ?_⟩,
    fun hfetch hcarry => ⟨?_, pc_step_of_return hfetch hcarry, fun hframes => ?_⟩,
    fun hfetch => ?_, fun hnone => ?_⟩
  · exact frames_of_event (callEvent?_eq_enter_iff.mpr ⟨⟨target, hfetch⟩, hcarry, rfl⟩)
  · rw [pc_step_of_branch hfetch hcarry, h.reaches.sameMap.origin_eq]
  · have hleave : d.callEvent? = some .leave := by
      simp [callEvent?, hfetch, hcarry]
    exact frames_of_event hleave
  · obtain ⟨front, e, back, hseen, hbranch, hcarry', hinnermost, hkept⟩ :=
      h.exists_branch hstart hframes
    refine ⟨front, e, back, hseen, hbranch, hcarry', hinnermost, hkept, ?_⟩
    rw [pc_step_of_return hfetch hcarry, hinnermost]
    rfl
  · have hdrop : d.callEvent? = some .drop := by simp [callEvent?, hfetch]
    exact frames_of_event hdrop
  · rw [frames_step, hnone]
    rfl

/-- The return of a program continues behind its branch. -/
theorem calls_nest_return :
    ∃ c, load { layout := ⟨64, 16, 16, 16⟩, files := .empty } callImage = .ok c ∧
      c.Traces [c, c.step.computer] c.step.computer.step.computer ∧
      c.step.computer.step.computer.cpu.calls.frames = [c.step.computer.cpu.registers.pc + 5] ∧
      c.step.computer.step.computer.step.computer.cpu.registers.pc =
        c.step.computer.cpu.registers.pc + 5 := by
  have horigin : (calling ⟨64, 16, 16, 16⟩ 0 0 112 []).memory.origin = 112 :=
    UInt32.toNat_inj.mp (loaded_calling (by decide) 0 0 112 []).toNat_origin
  have hload : load { layout := ⟨64, 16, 16, 16⟩, files := .empty } callImage =
      .ok (calling ⟨64, 16, 16, 16⟩ 0 0 112 []) := by
    rw [load_eq (by decide), ← horigin]
    rfl
  have htraces := Traces.refl (c := calling ⟨64, 16, 16, 16⟩ 0 0 112 []) |>.step |>.step
  have hloaded := @loaded_calling ⟨64, 16, 16, 16⟩ (by decide) 2 1 119 [118]
  have hcontent : Listing.contentAt (padImage callImage)
      (calling ⟨64, 16, 16, 16⟩ 2 1 119 [118]).position = .ok .ret := rfl
  have hfetch := hloaded.instructionAt_eq (hloaded.fitsAt portable_calling_return)
  rw [hcontent] at hfetch
  have hnest := (calls_nest hload htraces).2.2.1
  refine ⟨_, hload, htraces, ?_, ?_⟩
  · rw [step_calling_set, step_calling_branch]
    rfl
  · rw [step_calling_set, step_calling_branch] at hnest ⊢
    exact (hnest hfetch (by decide)).2.1

end Computer

end StackRisc
