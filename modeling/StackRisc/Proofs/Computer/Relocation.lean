import StackRisc.Proofs.Computer.Surroundings

/-!
# StackRisc.Proofs.Computer.Relocation

Machines seen from their program origin.  The view of a machine (`Computer.view`)
is what its program can tell of it by other means than memory, with the program
counter and the return addresses counted from the origin.  An action floats
(`Action.Floats`) if it comes to the same on machines with the same view, and
leaves the same view of them; then it does not matter where the program was put.

* `Cpu.Floats` — changes of the processor that only count from the origin;
* `Action.floats_branch` — a branch counts its target from the origin, and
  what it saves from the program counter;
* `Action.inStep_execute` — the instructions on machines with the same view.
-/

namespace StackRisc

/-! ## Processors -/

namespace Cpu

/-- The processor with its addresses counted from an origin. -/
def relativeTo (cpu : Cpu) (origin : Address) : Cpu :=
  { cpu with
    registers := { cpu.registers with pc := cpu.registers.pc - origin }
    calls := ⟨cpu.calls.frames.map (· - origin)⟩ }

/-- A change of the processor comes to the same wherever addresses are counted
from. -/
def Floats (f : Cpu → Cpu) : Prop :=
  ∀ cpu origin, (f cpu).relativeTo origin = f (cpu.relativeTo origin)

variable (cpu : Cpu) (origin : Address)

@[simp] theorem top_relativeTo : (cpu.relativeTo origin).top = cpu.top := by
  obtain ⟨registers, stack, calls, width⟩ := cpu
  cases width <;> rfl

@[simp] theorem accumulator_relativeTo : (cpu.relativeTo origin).accumulator = cpu.accumulator := by
  obtain ⟨registers, stack, calls, width⟩ := cpu
  cases width <;> rfl

/-- Dropping the top of the stack does not depend on where the program is. -/
theorem floats_dropTop : Floats dropTop := by
  intro cpu origin
  rw [dropTop_eq, dropTop_eq]
  rfl

theorem floats_push (v : Word) : Floats fun cpu => cpu.push cpu.width v := by
  rintro ⟨registers, stack, calls, width⟩ origin
  cases width <;> rfl

theorem floats_setAccumulator (v : Word) : Floats (·.setAccumulator v) := by
  rintro ⟨registers, stack, calls, width⟩ origin
  cases width <;> rfl

theorem floats_setCarry (test : Byte → Bool) :
    Floats fun cpu => cpu.setCarry (test cpu.registers.carry) :=
  fun _ _ => rfl

theorem floats_toggle : Floats fun cpu => { cpu with width := cpu.width.toggle } :=
  fun _ _ => rfl

theorem add_sub_right (a n origin : Address) : a + n - origin = a - origin + n := by
  grind

/-- The program counter moves on from where it is. -/
theorem floats_advance (n : Address) : Floats fun cpu => cpu.jump (cpu.registers.pc + n) := by
  intro cpu origin
  simp only [relativeTo, jump, add_sub_right]

/-- The processor with other return addresses. -/
def withCalls (cpu : Cpu) (calls : CallStack) : Cpu := { cpu with calls }

/-- The processor with the place of a later instruction saved. -/
def call (cpu : Cpu) (n : Address) : Cpu := cpu.withCalls (cpu.calls.push (cpu.registers.pc + n))

/-- A call is saved relative to the origin. -/
theorem relativeTo_call (n : Address) :
    (cpu.call n).relativeTo origin = (cpu.relativeTo origin).call n := by
  simp only [relativeTo, call, withCalls, CallStack.push, List.map_cons, add_sub_right]

theorem relativeTo_withCalls (calls : CallStack) :
    (cpu.withCalls calls).relativeTo origin =
      (cpu.relativeTo origin).withCalls ⟨calls.frames.map (· - origin)⟩ :=
  rfl

/-- A jump to a distance from the origin. -/
theorem relativeTo_jump (target : Address) :
    (cpu.jump (origin + target)).relativeTo origin = (cpu.relativeTo origin).jump target := by
  have hpc : origin + target - origin = target := by grind
  simp only [relativeTo, jump, hpc]

/-- A return address is counted from the origin like the program counter. -/
theorem relativeTo_return (address : Address) (calls : CallStack) :
    ((cpu.withCalls calls).jump address).relativeTo origin =
      ((cpu.relativeTo origin).withCalls ⟨calls.frames.map (· - origin)⟩).jump
        (address - origin) :=
  rfl

end Cpu

/-! ## Machines -/

/-- What a program can tell of its machine without looking at memory. -/
structure Computer.View where
  /-- The processor, with its addresses counted from the program origin. -/
  cpu : Cpu
  running : Bool
  cycles : Nat
  exitCode : Option Word
  console : Array String
  mode : DisplayMode
  width : UInt32
  height : UInt32

/-- The view of a machine. -/
def Computer.view (c : Computer) : Computer.View where
  cpu := c.cpu.relativeTo c.memory.origin
  running := c.running
  cycles := c.cycles
  exitCode := c.exitCode
  console := c.console
  mode := c.display.mode
  width := c.display.width
  height := c.display.height

/-- The display and a pending blit are not in the view. -/
theorem Computer.SameOffDisplay.view_eq {c d : Computer} (h : c.SameOffDisplay d) :
    c.view = d.view :=
  show c.offDisplay.view = d.offDisplay.view from congrArg Computer.view h

/-- Two results are the same, up to the addresses that an exception names. -/
inductive SameResult {α : Type} : Except Fault α → Except Fault α → Prop where
  | ok (a : α) : SameResult (.ok a) (.ok a)
  | exception {cause cause' : Exception} :
      cause.code = cause'.code → SameResult (.error (.exception cause)) (.error (.exception cause'))

theorem SameResult.eq_ok {α : Type} {a : α} {r : Except Fault α} (h : SameResult (.ok a) r) :
    r = .ok a := by
  cases h
  rfl

/-- Results that differ are exceptions with the same code. -/
theorem SameResult.exists_error {α : Type} {fault : Fault} {r : Except Fault α}
    (h : SameResult (.error fault) r) :
    ∃ cause cause', fault = .exception cause ∧ r = .error (.exception cause') ∧
      cause.code = cause'.code := by
  cases h with
  | exception hcode => exact ⟨_, _, rfl, rfl, hcode⟩

namespace Action

variable {α β : Type} {x : Action α} {f : α → Action β} {c c' : Computer}

/-- The action comes to the same on two machines, and leaves the same view. -/
structure InStep (x : Action α) (c c' : Computer) : Prop where
  result : SameResult (x.run c).result (x.run c').result
  view : (x.run c).computer.view = (x.run c').computer.view

/-- The action comes to the same on all machines with the same view. -/
def Floats (x : Action α) : Prop := ∀ ⦃c c' : Computer⦄, c.view = c'.view → x.InStep c c'

/-! ## Sequences -/

/-- After a success, the rest runs. -/
theorem run_bind_ok {a : α} (h : (x.run c).result = .ok a) :
    ((x >>= f).run c).result = ((f a).run (x.run c).computer).result ∧
      ((x >>= f).run c).computer = ((f a).run (x.run c).computer).computer := by
  rw [run_bind, h]
  exact ⟨rfl, rfl⟩

/-- After a failure, nothing more runs. -/
theorem run_bind_error {fault : Fault} (h : (x.run c).result = .error fault) :
    ((x >>= f).run c).result = .error fault ∧
      ((x >>= f).run c).computer = (x.run c).computer := by
  rw [run_bind, h]
  exact ⟨rfl, rfl⟩

/-- Two machines stay in step from action to action. -/
theorem InStep.bind (hx : x.InStep c c')
    (hf : ∀ a, (x.run c).result = .ok a → (f a).InStep (x.run c).computer (x.run c').computer) :
    (x >>= f).InStep c c' := by
  have hresult := hx.result
  cases h : (x.run c).result with
  | ok a =>
      rw [h] at hresult
      obtain ⟨hr, hc⟩ := run_bind_ok (f := f) h
      obtain ⟨hr', hc'⟩ := run_bind_ok (f := f) hresult.eq_ok
      obtain ⟨hnext, hview⟩ := hf a h
      exact ⟨by rwa [hr, hr'], by rwa [hc, hc']⟩
  | error fault =>
      rw [h] at hresult
      obtain ⟨cause, cause', rfl, h', hcode⟩ := hresult.exists_error
      obtain ⟨hr, hc⟩ := run_bind_error (f := f) h
      obtain ⟨hr', hc'⟩ := run_bind_error (f := f) h'
      refine ⟨?_, by rw [hc, hc']; exact hx.view⟩
      rw [hr, hr']
      exact .exception hcode

/-- Actions that float follow one another. -/
theorem Floats.bind (hx : x.Floats) (hf : ∀ a, (f a).Floats) : (x >>= f).Floats :=
  fun _ _ h => (hx h).bind fun a _ => hf a (hx h).view

/-- Looking at the machine first. -/
theorem inStep_look {g : Computer → Action β} :
    (get >>= g).InStep c c' ↔
      SameResult ((g c).run c).result ((g c').run c').result ∧
        ((g c).run c).computer.view = ((g c').run c').computer.view := by
  have hrun (d : Computer) := run_bind_ok (x := get) (f := g) (c := d) (a := d) rfl
  constructor
  · rintro ⟨hresult, hview⟩
    rw [(hrun c).1, (hrun c').1] at hresult
    rw [(hrun c).2, (hrun c').2] at hview
    exact ⟨hresult, hview⟩
  · rintro ⟨hresult, hview⟩
    constructor
    · rw [(hrun c).1, (hrun c').1]
      exact hresult
    · rw [(hrun c).2, (hrun c').2]
      exact hview

/-- An action may look at the view of its machine. -/
theorem floats_look {g : Computer → Action β} (hsame : ∀ c c', c.view = c'.view → g c = g c')
    (hg : ∀ c, (g c).Floats) : (get >>= g).Floats := by
  intro c c' h
  rw [inStep_look, ← hsame c c' h]
  exact ⟨(hg c h).result, (hg c h).view⟩

/-! ## Elementary actions -/

/-- An action whose result and whose effect are seen in the view. -/
theorem floats_of_run {a : Computer.View → α} {v : Computer.View → Computer.View}
    (h : ∀ c, (x.run c).result = .ok (a c.view) ∧ (x.run c).computer.view = v c.view) :
    x.Floats := by
  intro c c' heq
  constructor
  · rw [(h c).1, (h c').1, heq]
    exact .ok _
  · rw [(h c).2, (h c').2, heq]

theorem floats_pure (a : α) : (pure a : Action α).Floats :=
  floats_of_run (a := fun _ => a) (v := id) fun _ => ⟨rfl, rfl⟩

theorem floats_note (e : Event) : (note e).Floats :=
  floats_of_run (a := fun _ => ()) (v := id) fun _ => ⟨rfl, rfl⟩

theorem floats_raise (cause : Exception) : (raise cause : Action α).Floats :=
  fun _ _ h => ⟨.exception rfl, h⟩

/-- A change of the processor floats if it does so relative to the origin. -/
theorem floats_modifyCpu {g : Cpu → Cpu} (hg : Cpu.Floats g) : (modifyCpu g).Floats :=
  floats_of_run (a := fun _ => ()) (v := fun v => { v with cpu := g v.cpu })
    fun c => ⟨rfl, congrArg (fun cpu => { c.view with cpu }) (hg c.cpu c.memory.origin)⟩

theorem floats_pop : pop.Floats :=
  floats_of_run (a := fun v => v.cpu.top) (v := fun v => { v with cpu := v.cpu.dropTop })
    fun c => ⟨congrArg Except.ok (c.cpu.top_relativeTo _).symm,
      congrArg (fun cpu => { c.view with cpu }) (Cpu.floats_dropTop c.cpu c.memory.origin)⟩

theorem floats_push (v : Word) : (push v).Floats := floats_modifyCpu (Cpu.floats_push v)

theorem floats_accumulator : accumulator.Floats :=
  floats_of_run (a := fun v => v.cpu.accumulator) (v := id)
    fun c => ⟨congrArg Except.ok (c.cpu.accumulator_relativeTo _).symm, rfl⟩

theorem floats_setAccumulator (v : Word) : (setAccumulator v).Floats :=
  floats_modifyCpu (Cpu.floats_setAccumulator v)

/-! ## Services -/

theorem floats_popDimension : popDimension.Floats := by
  refine floats_pop.bind fun value => ?_
  split
  · exact (floats_note _).bind fun _ => floats_pure _
  · exact floats_pure _

/-- A service that looks at no memory floats. -/
theorem floats_perform {service : Syscall} (hprint : service ≠ .print)
    (hfile : service ≠ .readFileChunk) : service.perform.Floats := by
  cases service with
  | print | readFileChunk => contradiction
  | exit =>
      exact floats_pop.bind fun code => (floats_note _).bind fun _ =>
        floats_of_run (a := fun _ => ())
          (v := fun v => { v with exitCode := some code, running := false }) fun _ => ⟨rfl, rfl⟩
  | assert =>
      exact floats_pop.bind fun value => (floats_note _).bind fun _ =>
        floats_of_run (a := fun _ => ()) (v := fun v => { v with console := v.console.push _ })
          fun _ => ⟨rfl, rfl⟩
  | blit => exact floats_of_run (a := fun _ => ()) (v := id) fun _ => ⟨rfl, rfl⟩
  | initialized =>
      exact (floats_note _).bind fun _ =>
        floats_of_run (a := fun _ => ()) (v := id) fun _ => ⟨rfl, rfl⟩
  | toggleWidth => exact floats_modifyCpu Cpu.floats_toggle
  | displayMode =>
      refine floats_pop.bind fun value => ?_
      cases DisplayMode.ofWord? value with
      | some mode =>
          exact floats_of_run (a := fun _ => ()) (v := fun v => { v with mode }) fun _ => ⟨rfl, rfl⟩
      | none =>
          exact (floats_note _).bind fun _ =>
            floats_of_run (a := fun _ => ()) (v := fun v => { v with mode := .console })
              fun _ => ⟨rfl, rfl⟩
  | displayWidth =>
      exact floats_popDimension.bind fun width =>
        floats_of_run (a := fun _ => ()) (v := fun v => { v with width }) fun _ => ⟨rfl, rfl⟩
  | displayHeight =>
      exact floats_popDimension.bind fun height =>
        floats_of_run (a := fun _ => ()) (v := fun v => { v with height }) fun _ => ⟨rfl, rfl⟩

/-! ## Instructions -/

theorem floats_combine (op : Width → (a b : Word) → Word) : (combine op).Floats := by
  refine floats_look (fun c c' h => ?_) fun c => floats_pop.bind fun a =>
    floats_accumulator.bind fun b => (floats_setAccumulator _).bind fun _ => floats_pure _
  have hwidth : c.cpu.width = c'.cpu.width := congrArg (·.cpu.width) h
  rw [hwidth]

theorem floats_compare (test : (a b : Word) → Bool) : (compare test).Floats :=
  floats_pop.bind fun _ => floats_accumulator.bind fun _ =>
    (floats_modifyCpu (Cpu.floats_setCarry fun _ => _)).bind fun _ => floats_pure _

theorem floats_divide : divide.Floats := by
  refine floats_look (fun c c' h => ?_) fun c => floats_pop.bind fun a =>
    floats_accumulator.bind fun b => ?_
  · have hwidth : c.cpu.width = c'.cpu.width := congrArg (·.cpu.width) h
    rw [hwidth]
  · split
    · exact floats_raise _
    · exact (floats_setAccumulator _).bind fun _ => floats_pure _

theorem carry_eq (h : c.view = c'.view) : c.cpu.registers.carry = c'.cpu.registers.carry :=
  congrArg (·.cpu.registers.carry) h

/-- What depends on the carry floats, since it is the same at every origin. -/
theorem floats_carry {g : Byte → Action β} (hg : ∀ carry, (g carry).Floats) :
    (get >>= fun c => g c.cpu.registers.carry).Floats :=
  floats_look (fun _ _ h => by rw [carry_eq h]) fun _ => hg _

/-! ## Control flow -/

/-- Two actions that change the processor alone, and leave processors that are
the same from the origins. -/
theorem same_of_cpu {y : Action α} {a : α} {cpu cpu' : Cpu} (h : c.view = c'.view)
    (hx : x.Ends c (.ok a) { c with cpu }) (hy : y.Ends c' (.ok a) { c' with cpu := cpu' })
    (hcpu : cpu.relativeTo c.memory.origin = cpu'.relativeTo c'.memory.origin) :
    SameResult (x.run c).result (y.run c').result ∧
      (x.run c).computer.view = (y.run c').computer.view := by
  rw [hx.1, hx.2, hy.1, hy.2]
  refine ⟨.ok a, ?_⟩
  calc ({ c with cpu } : Computer).view
    _ = { c.view with cpu := cpu.relativeTo c.memory.origin } := rfl
    _ = { c'.view with cpu := cpu'.relativeTo c'.memory.origin } := by rw [h, hcpu]

theorem cpu_eq (h : c.view = c'.view) :
    c.cpu.relativeTo c.memory.origin = c'.cpu.relativeTo c'.memory.origin :=
  congrArg (·.cpu) h

/-- A branch counts its target from the origin, and saves a place that is
counted from the program counter. -/
theorem floats_branch (target : Address) : (branch target).Floats := by
  intro c c' h
  unfold branch
  rw [inStep_look, carry_eq h]
  split
  · have hcpu : ((c.cpu.call 5).jump (c.memory.origin + target)).relativeTo c.memory.origin =
        ((c'.cpu.call 5).jump (c'.memory.origin + target)).relativeTo c'.memory.origin := by
      rw [Cpu.relativeTo_jump, Cpu.relativeTo_jump, Cpu.relativeTo_call, Cpu.relativeTo_call,
        cpu_eq h]
    exact same_of_cpu h ⟨rfl, rfl⟩ ⟨rfl, rfl⟩ hcpu
  · exact ⟨.ok _, h⟩

/-- The innermost return addresses are at the same distance from the origins. -/
theorem pop?_calls (h : c.view = c'.view) :
    (c.cpu.calls.frames = [] ∧ c.cpu.calls.pop? = none ∧ c'.cpu.calls.pop? = none) ∨
    ∃ a calls a' calls', c.cpu.calls.pop? = some (a, calls) ∧
      c'.cpu.calls.pop? = some (a', calls') ∧ a - c.memory.origin = a' - c'.memory.origin ∧
      calls.frames.map (· - c.memory.origin) = calls'.frames.map (· - c'.memory.origin) := by
  have hframes : c.cpu.calls.frames.map (· - c.memory.origin) =
      c'.cpu.calls.frames.map (· - c'.memory.origin) := congrArg (·.cpu.calls.frames) h
  unfold CallStack.pop?
  cases hc : c.cpu.calls.frames with
  | nil =>
      rw [hc, List.map_nil, eq_comm, List.map_eq_nil_iff] at hframes
      rw [hframes]
      exact .inl ⟨rfl, rfl, rfl⟩
  | cons a rest =>
      rw [hc, List.map_cons, eq_comm, List.map_eq_cons_iff] at hframes
      obtain ⟨a', rest', hc', ha, hrest⟩ := hframes
      rw [hc']
      exact .inr ⟨a, ⟨rest⟩, a', ⟨rest'⟩, rfl, rfl, ha.symm, hrest.symm⟩

/-- A return leads to the same distance from the origin if there is a return
address. -/
theorem inStep_returnFromCall (h : c.view = c'.view)
    (hcalls : c.cpu.registers.carry ≠ 0 → c.cpu.calls.frames ≠ []) :
    returnFromCall.InStep c c' := by
  unfold returnFromCall
  rw [inStep_look, ← carry_eq h]
  split
  · exact ⟨.ok _, h⟩
  · next hcarry =>
    rcases pop?_calls h with ⟨hempty, -⟩ | ⟨a, calls, a', calls', hpop, hpop', ha, hframes⟩
    · exact absurd hempty (hcalls hcarry)
    · have hcpu : ((c.cpu.withCalls calls).jump a).relativeTo c.memory.origin =
          ((c'.cpu.withCalls calls').jump a').relativeTo c'.memory.origin := by
        rw [Cpu.relativeTo_return, Cpu.relativeTo_return, cpu_eq h, hframes, ha]
      simp only [hpop, hpop']
      exact same_of_cpu h ⟨rfl, rfl⟩ ⟨rfl, rfl⟩ hcpu

theorem floats_dropCall : dropCall.Floats := by
  intro c c' h
  unfold dropCall
  rw [inStep_look]
  rcases pop?_calls h with ⟨-, hnone, hnone'⟩ | ⟨a, calls, a', calls', hpop, hpop', -, hframes⟩
  · simp only [hnone, hnone']
    exact ⟨.ok _, h⟩
  · have hcpu : (c.cpu.withCalls calls).relativeTo c.memory.origin =
        (c'.cpu.withCalls calls').relativeTo c'.memory.origin := by
      rw [Cpu.relativeTo_withCalls, Cpu.relativeTo_withCalls, cpu_eq h, hframes]
    simp only [hpop, hpop']
    exact same_of_cpu h ⟨rfl, rfl⟩ ⟨rfl, rfl⟩ hcpu

/-! ## Whole instructions -/

/-- A service of the same table that looks at no memory. -/
theorem inStep_syscall (h : c.view = c'.view) (hservices : c.syscalls = c'.syscalls)
    {index : Word} (hprint : c.syscalls.get? index ≠ some .print)
    (hfile : c.syscalls.get? index ≠ some .readFileChunk) : (syscall index).InStep c c' := by
  unfold syscall
  rw [inStep_look, ← hservices]
  cases hservice : c.syscalls.get? index with
  | none => exact ⟨.exception rfl, h⟩
  | some service =>
      rw [hservice] at hprint hfile
      have hfloats : service.perform.Floats :=
        floats_perform (fun heq => hprint (heq ▸ rfl)) (fun heq => hfile (heq ▸ rfl))
      exact ⟨(hfloats h).result, (hfloats h).view⟩

/-- An instruction comes to the same on machines with the same view, unless it
looks at memory or returns to the address 0. -/
theorem inStep_execute {i : Instruction} (h : c.view = c'.view)
    (hservices : c.syscalls = c'.syscalls) (hldr : i ≠ .ldr) (hstr : i ≠ .str)
    (hsys : i = .sys → c.syscalls.get? c.cpu.accumulator ≠ some .print ∧
      c.syscalls.get? c.cpu.accumulator ≠ some .readFileChunk)
    (hret : i = .ret → c.cpu.registers.carry ≠ 0 → c.cpu.calls.frames ≠ []) :
    i.execute.InStep c c' := by
  have next {x : Action Unit} (hx : x.Floats) : (x >>= fun _ => pure Flow.next).Floats :=
    hx.bind fun _ => floats_pure _
  cases i with
  | ldr | str => contradiction
  | bge target => exact floats_branch target h
  | ldi value => exact next (floats_setAccumulator value) h
  | cmp | grt | les => exact floats_compare _ h
  | add =>
      exact floats_carry (g := fun carry => combine fun width a b => Arithmetic.add width a b carry)
        (fun _ => floats_combine _) h
  | mul =>
      exact floats_carry (g := fun carry => combine fun width a b => Arithmetic.mul width a b carry)
        (fun _ => floats_combine _) h
  | sub | lshft | rshft => exact floats_combine _ h
  | div => exact floats_divide h
  | push => exact (floats_accumulator.bind fun value => next (floats_push value)) h
  | pop => exact (floats_pop.bind fun value => next (floats_setAccumulator value)) h
  | clc | sec => exact next (floats_modifyCpu (Cpu.floats_setCarry fun _ => _)) h
  | flp => exact next (floats_modifyCpu (Cpu.floats_setCarry (· == 0))) h
  | ret => exact inStep_returnFromCall h (hret rfl)
  | cpop => exact floats_dropCall h
  | hlt =>
      have hstop : (modify fun c => { c with running := false }).Floats :=
        floats_of_run (a := fun _ => ()) (v := fun v => { v with running := false })
          fun _ => ⟨rfl, rfl⟩
      exact next hstop h
  | sys =>
      refine (floats_accumulator h).bind fun index hindex => ?_
      obtain rfl : c.cpu.accumulator = index := Except.ok.inj hindex
      obtain ⟨hprint, hfile⟩ := hsys rfl
      have hcall := inStep_syscall h hservices hprint hfile
      exact hcall.bind fun _ _ => floats_pure _ hcall.view
  | iret => exact floats_raise _ h

/-- Handing a picture over floats. -/
theorem floats_present : present.Floats :=
  floats_of_run (a := fun _ => ()) (v := id) fun c => by
    obtain ⟨hresult, hshown⟩ := Computer.ends_present (c := c) ⟨rfl, rfl⟩
    exact ⟨hresult.symm, hshown.view_eq.symm⟩

/-- The program counter moves on, the cycle is counted and a blit is presented. -/
theorem floats_complete (i : Instruction) (flow : Flow) : (i.complete flow).Floats := by
  have count : (modify fun c => { c with cycles := c.cycles + 1 }).Floats :=
    floats_of_run (a := fun _ => ()) (v := fun v => { v with cycles := v.cycles + 1 })
      fun _ => ⟨rfl, rfl⟩
  cases flow with
  | next =>
      exact (floats_modifyCpu (Cpu.floats_advance _)).bind fun _ =>
        count.bind fun _ => floats_present
  | jump => exact count.bind fun _ => floats_present

end Action

end StackRisc
