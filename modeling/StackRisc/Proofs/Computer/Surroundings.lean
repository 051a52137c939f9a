import StackRisc.Proofs.Computer.Guest

/-!
# StackRisc.Proofs.Computer.Surroundings

Fetching and executing an instruction comes to the same in all surroundings
of the machine, and leaves them as they are (`Action.Guest.ignores`).  Only
what follows the instruction has to do with them: a cycle is counted, and a
pending blit is presented.  Hence

* `Computer.cycles_step_ok`, `Computer.cycles_step_error` — a step counts one
  cycle, unless it faults;
* `Computer.SameOffDisplay.step` — machines that differ in the display alone
  step to such machines, with the same result.
-/

namespace StackRisc

namespace Action

variable {α β : Type} {s : Surroundings} {x : Action α} {f : α → Action β}

/-! ## Actions in other surroundings -/

/-- The action comes to the same in the surroundings, and leaves the same
machine in them. -/
def Ignores (s : Surroundings) (x : Action α) : Prop :=
  ∀ ⦃c r d⦄, x.Ends c r d → x.Ends (c.within s) r (d.within s)

/-- Stores ignore the surroundings of a program. -/
theorem ignores_store (width : Width) (address : Address) (v : Word) :
    (store width address v).Ignores s := by
  intro c r d h
  cases r with
  | ok =>
      obtain ⟨memory, cpu, hwrite, rfl⟩ := ends_store_ok.mp h
      exact ends_store_ok.mpr ⟨memory, cpu, hwrite, rfl⟩
  | error fault =>
      obtain ⟨hrefused, rfl⟩ := ends_store_error.mp h
      exact ends_store_error.mpr ⟨hrefused, rfl⟩

/-- Actions that ignore the surroundings follow one another. -/
theorem Ignores.bind (hx : x.Ignores s) (hf : ∀ a, (f a).Ignores s) : (x >>= f).Ignores s := by
  intro c r d h
  rcases ends_bind.mp h with ⟨a, e, hfirst, hsecond⟩ | ⟨fault, hfirst, hr⟩
  · exact ends_bind.mpr (.inl ⟨a, e.within s, hx hfirst, hf a hsecond⟩)
  · exact ends_bind.mpr (.inr ⟨fault, hx hfirst, hr⟩)

/-- A program does not see the surroundings. -/
theorem Guest.ignores (h : Guest x) (s : Surroundings) : x.Ignores s := by
  induction h with
  | plain h =>
      rintro c r d ⟨rfl, rfl⟩
      exact (h s c).2.2
  | store width address v => exact ignores_store width address v
  | bind _ _ hx hf => exact hx.bind hf
  | @look _ g hsame _ ih =>
      intro c r d h
      have hnext : (g c).Ends (c.within s) r (d.within s) := ih c (by simpa using h)
      rw [← hsame s c] at hnext
      simpa using hnext

/-- Fetch an instruction and execute it: a step without what follows the
instruction. -/
def attempt : Action (Instruction × Flow) := do
  let i ← fetch
  let flow ← i.execute
  pure (i, flow)

/-- Fetching and executing an instruction is something that a program does. -/
theorem guest_attempt : Guest attempt :=
  .bind guest_fetch fun i => .bind (guest_execute i) fun _ => .plain fun _ _ => ⟨rfl, rfl, rfl, rfl⟩

end Action

open StackRisc.Action

namespace Computer

variable {c c' d d' e : Computer}

/-! ## Machines off their display -/

/-- The surroundings that a machine is in. -/
def surroundings (c : Computer) : Surroundings :=
  ⟨c.cycles, c.maxCycles, c.link, c.display.blitRequested⟩

/-- The machine without its display and the blit that it has pending. -/
def offDisplay (c : Computer) : Computer :=
  { c with link := none, display := { c.display with blitRequested := false } }

/-- The machines differ at most in the display and in whether a blit is pending. -/
def SameOffDisplay (c d : Computer) : Prop := c.offDisplay = d.offDisplay

theorem SameOffDisplay.refl (c : Computer) : c.SameOffDisplay c := rfl

/-- The display that is left out may be either one. -/
theorem SameOffDisplay.symm (h : c.SameOffDisplay d) : d.SameOffDisplay c := Eq.symm h

theorem SameOffDisplay.trans (h : c.SameOffDisplay d) (h' : d.SameOffDisplay e) :
    c.SameOffDisplay e := Eq.trans h h'

section

variable (h : c.SameOffDisplay d)
include h

theorem SameOffDisplay.host_eq : c.host = d.host :=
  show c.offDisplay.host = d.offDisplay.host from congrArg host h

theorem SameOffDisplay.running_eq : c.running = d.running :=
  show c.offDisplay.running = d.offDisplay.running from congrArg running h

theorem SameOffDisplay.cycles_eq : c.cycles = d.cycles :=
  show c.offDisplay.cycles = d.offDisplay.cycles from congrArg cycles h

theorem SameOffDisplay.maxCycles_eq : c.maxCycles = d.maxCycles :=
  show c.offDisplay.maxCycles = d.offDisplay.maxCycles from congrArg maxCycles h

end

/-- A machine is put together from its inside and its surroundings. -/
theorem within_offDisplay (c : Computer) : c.offDisplay.within c.surroundings = c := rfl

/-! ## Steps -/

/-- An instruction comes to what it comes to without a display. -/
theorem ends_attempt (c : Computer) :
    attempt.Ends c (attempt.run c.offDisplay).result
      ((attempt.run c.offDisplay).computer.within c.surroundings) := by
  have h := guest_attempt.ignores c.surroundings (c := c.offDisplay) ⟨rfl, rfl⟩
  rwa [within_offDisplay] at h

/-- Fetching and executing gives the same whatever the display. -/
theorem SameOffDisplay.attempt (h : c.SameOffDisplay c') {r r' : Except Fault (Instruction × Flow)}
    (hends : Action.attempt.Ends c r d) (hends' : Action.attempt.Ends c' r' d') :
    r = r' ∧ d.SameOffDisplay d' := by
  obtain ⟨hresult, hleft⟩ := ends_attempt c
  obtain ⟨hresult', hleft'⟩ := ends_attempt c'
  obtain ⟨rfl, rfl⟩ := hends
  obtain ⟨rfl, rfl⟩ := hends'
  constructor
  · rw [hresult, hresult', h]
  · rw [hleft, hleft', h]
    unfold SameOffDisplay offDisplay within surroundings
    rw [h.cycles_eq, h.maxCycles_eq]

/-- Fetching and executing leaves the cycles, the limit and the link. -/
theorem surroundings_attempt {r : Except Fault (Instruction × Flow)}
    (hends : Action.attempt.Ends c r d) :
    d.cycles = c.cycles ∧ d.maxCycles = c.maxCycles ∧ d.link = c.link := by
  rw [← hends.2, (ends_attempt c).2]
  exact ⟨rfl, rfl, rfl⟩

/-- The machine after an instruction: the program counter moves on, unless the
instruction set it, and the cycle is counted. -/
def counted (c : Computer) (i : Instruction) (flow : Flow) : Computer :=
  { c with
    cpu := match flow with
      | .next => c.cpu.jump (c.cpu.registers.pc + UInt32.ofNat i.size)
      | .jump => c.cpu
    cycles := c.cycles + 1 }

@[simp] theorem cycles_counted (c : Computer) (i : Instruction) (flow : Flow) :
    (c.counted i flow).cycles = c.cycles + 1 := rfl

/-- Counting a cycle keeps machines equal apart from their displays. -/
theorem SameOffDisplay.counted (h : c.SameOffDisplay d) (i : Instruction) (flow : Flow) :
    (c.counted i flow).SameOffDisplay (d.counted i flow) :=
  congrArg (Computer.counted · i flow) h

/-- Presenting a blit never faults, and changes the display alone. -/
theorem ends_present {r : Except Fault Unit} (h : present.Ends c r d) :
    .ok () = r ∧ c.SameOffDisplay d := by
  obtain ⟨rfl, rfl⟩ := h
  unfold Action.run present
  split
  · split
    · exact ⟨rfl, rfl⟩
    · split
      · exact ⟨rfl, rfl⟩
      · split <;> exact ⟨rfl, rfl⟩
  · exact ⟨rfl, rfl⟩

/-- A step executes an instruction, counts it and presents a pending blit. -/
theorem ends_step {r : Except Fault Unit} :
    StackRisc.step.Ends c r d ↔
      (∃ i flow e, Action.attempt.Ends c (.ok (i, flow)) e ∧
        present.Ends (e.counted i flow) r d) ∨
      ∃ fault, Action.attempt.Ends c (.error fault) d ∧ .error fault = r := by
  have complete (i : Instruction) (flow : Flow) (e : Computer) :
      (i.complete flow).Ends e r d ↔ present.Ends (e.counted i flow) r d := by
    cases flow <;> simp [Instruction.complete, Computer.counted]
  simp only [step_eq, Action.attempt, ends_bind, ends_pure, complete]
  grind

/-- A step executes an instruction and counts it, or faults. -/
theorem step_cases (c : Computer) :
    (∃ i flow e, Action.attempt.Ends c (.ok (i, flow)) e ∧ c.step.result = .ok () ∧
      (e.counted i flow).SameOffDisplay c.step.computer) ∨
    ∃ fault, Action.attempt.Ends c (.error fault) c.step.computer ∧
      c.step.result = .error fault := by
  rcases ends_step.mp ⟨rfl, rfl⟩ with ⟨i, flow, e, hattempt, hpresent⟩ | ⟨fault, hattempt, hr⟩
  · obtain ⟨hok, hshown⟩ := ends_present hpresent
    exact .inl ⟨i, flow, e, hattempt, hok.symm, hshown⟩
  · exact .inr ⟨fault, hattempt, hr.symm⟩

/-- A step that succeeds counts one cycle. -/
theorem cycles_step_ok (h : c.step.result = .ok ()) :
    c.step.computer.cycles = c.cycles + 1 := by
  rcases c.step_cases with ⟨i, flow, e, hattempt, -, hshown⟩ | ⟨fault, -, hr⟩
  · rw [← hshown.cycles_eq, cycles_counted, (surroundings_attempt hattempt).1]
  · rw [h] at hr
    contradiction

/-- A step that faults counts none. -/
theorem cycles_step_error {fault : Fault} (h : c.step.result = .error fault) :
    c.step.computer.cycles = c.cycles := by
  rcases c.step_cases with ⟨i, flow, e, -, hok, -⟩ | ⟨fault', hattempt, -⟩
  · rw [h] at hok
    contradiction
  · exact (surroundings_attempt hattempt).1

/-- No step changes the cycle limit. -/
theorem maxCycles_step (c : Computer) : c.step.computer.maxCycles = c.maxCycles := by
  rcases c.step_cases with ⟨i, flow, e, hattempt, -, hshown⟩ | ⟨fault, hattempt, -⟩
  · rw [← hshown.maxCycles_eq]
    exact (surroundings_attempt hattempt).2.1
  · exact (surroundings_attempt hattempt).2.1

/-- No step changes what the host provides. -/
theorem host_step (c : Computer) : c.step.computer.host = c.host := by
  rcases c.step_cases with ⟨i, flow, e, hattempt, -, hshown⟩ | ⟨fault, hattempt, -⟩
  · have hexecuted : e.host = c.host := guest_attempt.host_eq hattempt
    rw [← hshown.host_eq, ← hexecuted]
    rfl
  · exact guest_attempt.host_eq hattempt

/-- The display has no influence on a step. -/
theorem SameOffDisplay.step (h : c.SameOffDisplay c') :
    c.step.result = c'.step.result ∧ c.step.computer.SameOffDisplay c'.step.computer := by
  rcases c.step_cases with ⟨i, flow, e, hattempt, hok, hshown⟩ | ⟨fault, hattempt, hr⟩
  · rcases c'.step_cases with ⟨i', flow', e', hattempt', hok', hshown'⟩ | ⟨fault', hattempt', -⟩
    · obtain ⟨hresult, hsame⟩ := h.attempt hattempt hattempt'
      obtain ⟨rfl, rfl⟩ := Prod.mk.inj (Except.ok.inj hresult)
      exact ⟨by rw [hok, hok'], hshown.symm.trans ((hsame.counted i flow).trans hshown')⟩
    · exact absurd (h.attempt hattempt hattempt').1 nofun
  · rcases c'.step_cases with ⟨i', flow', e', hattempt', -, -⟩ | ⟨fault', hattempt', hr'⟩
    · exact absurd (h.attempt hattempt hattempt').1 nofun
    · obtain ⟨hresult, hsame⟩ := h.attempt hattempt hattempt'
      exact ⟨by rw [hr, hr', Except.error.inj hresult], hsame⟩

end Computer

end StackRisc
