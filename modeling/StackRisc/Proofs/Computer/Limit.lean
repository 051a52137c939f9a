import StackRisc.Computer.Run
import StackRisc.Proofs.Computer.Control
import StackRisc.Proofs.Computer.Progress

/-!
# StackRisc.Proofs.Computer.Limit

Runs under a cycle limit.  Such a run ends, and the cycles it counts are the
steps it made; it halts, meets the limit or ends with the fault of its last
step, and the machine after those steps tells which (`Computer.run_accounts`).
No step reports the limit itself (`Computer.step_ne_cycleLimit`), so a run that
ends with it was stopped between two steps.
-/

namespace StackRisc.Computer

variable {c d : Computer} {n limit : Nat} {fault : Fault}

/-! ## Faults of steps -/

/-- Decoding never reports the limit of cycles. -/
theorem instructionAt_ne_cycleLimit (address : Address) :
    (c.instructionAt address).value ≠ .error (.cycleLimit limit) := by
  rw [instructionAt]
  cases Opcode.ofByte? (c.memory.read8 c.cpu address).value with
  | none => simp
  | some op =>
      cases hoperand : op.hasOperand with
      | false => simp [hoperand]
      | true =>
          cases hword : (c.memory.read32 c.cpu (address + 1)).value <;>
            simp [hoperand, hword]

/-- A step does not look at the cycle limit. -/
theorem step_ne_cycleLimit (c : Computer) (limit : Nat) :
    c.step.result ≠ .error (.cycleLimit limit) := by
  intro h
  rcases Action.ends_step_error.mp ⟨h, rfl⟩ with ⟨hfetch, -⟩ | ⟨i, -, hfaults⟩
  · exact instructionAt_ne_cycleLimit _ hfetch
  · cases hfaults

/-! ## The three ends of a run -/

/-- What a run under a cycle limit comes to after so many steps that succeed. -/
structure Accounts (c : Computer) (limit n : Nat) : Prop where
  within : n ≤ limit - c.cycles
  steps : ∀ k < n, (c.after k).running = true ∧ (c.after k).step.result = .ok ()
  cycles : c.run.computer.cycles = c.cycles + n
  finished : c.run.ending ≠ .unfinished
  /-- The machine that is left has made these steps, and the one that failed. -/
  left : c.run.computer = c.after n ∨
    (∃ fault, (c.after n).step.result = .error fault) ∧ c.run.computer = c.after (n + 1)
  halted : c.run.ending = .halted ↔ (c.after n).running = false
  limited : c.run.ending = .faulted (.cycleLimit limit) ↔
    (c.after n).running = true ∧ limit ≤ (c.after n).cycles
  failed : (c.after n).running = true → (c.after n).cycles < limit →
    ∃ fault, (c.after n).step.result = .error fault ∧ c.run.ending = .faulted fault

/-- The limit is reported once it is reached. -/
theorem cycleLimit?_eq_some_iff (hlimit : c.maxCycles = some limit) :
    c.cycleLimit? = some fault ↔ limit ≤ c.cycles ∧ fault = .cycleLimit limit := by
  simp [cycleLimit?, hlimit, eq_comm]

/-- Under a cycle limit the fuel of a run is never spent. -/
theorem run_ends (hlimit : c.maxCycles = some limit) :
    ∃ n, c.Proceeds n ∧ c.RunEnds n c.run.ending c.run.computer := by
  rcases runWithin_ends c.fuel c #[] with ⟨n, -, hproceeds, hends⟩ | ⟨hproceeds, -⟩
  · exact ⟨n, hproceeds, hends⟩
  · rw [hproceeds.unlimited.1] at hlimit
    contradiction

/-- A run ends with the machine halted or with something in its way. -/
theorem runEnds_cases {e : Ending} (h : c.RunEnds n e d) :
    (e = .halted ∧ (c.after n).running = false ∧ d = c.after n) ∨
    ∃ fault, e = .faulted fault ∧ (c.after n).running = true ∧
      (c.after n).obstacle? = some (fault, d) := by
  cases h with
  | halted hstop => exact .inl ⟨rfl, hstop, rfl⟩
  | faulted hrun hstuck => exact .inr ⟨_, rfl, hrun, hstuck⟩

/-- A run with a limit accounts for its cycles. -/
theorem RunEnds.accounts (hlimit : c.maxCycles = some limit) (hproceeds : c.Proceeds n)
    (h : c.RunEnds n c.run.ending c.run.computer) : c.Accounts limit n := by
  have hmax : (c.after n).maxCycles = some limit := (c.maxCycles_after n).trans hlimit
  have hsteps (k : Nat) (hk : k < n) :
      (c.after k).running = true ∧ (c.after k).step.result = .ok () :=
    ⟨(hproceeds k hk).1, (obstacle?_eq_none_iff.mp (hproceeds k hk).2).2⟩
  have hwithin := hproceeds.le_limit hlimit
  rcases runEnds_cases h with ⟨hending, hstop, hleft⟩ | ⟨fault, hending, hrun, hstuck⟩
  · exact
      { within := hwithin
        steps := hsteps
        cycles := by rw [hleft, hproceeds.cycles]
        finished := by simp [hending]
        left := .inl hleft
        halted := by simp [hending, hstop]
        limited := by simp [hending, hstop]
        failed := by simp [hstop] }
  · have hcycles : c.run.computer.cycles = c.cycles + n := by
      rw [cycles_of_obstacle hstuck, hproceeds.cycles]
    rcases obstacle?_eq_some_iff.mp hstuck with ⟨hmet, hleft⟩ | ⟨hfree, hfails, hleft⟩
    · obtain ⟨hreached, rfl⟩ := (cycleLimit?_eq_some_iff hmax).mp hmet
      exact
        { within := hwithin
          steps := hsteps
          cycles := hcycles
          finished := by simp [hending]
          left := .inl hleft.symm
          halted := by simp [hending, hrun]
          limited := by simp [hending, hrun, hreached]
          failed := fun _ hlt => absurd hreached (Nat.not_le_of_lt hlt) }
    · have hlt : (c.after n).cycles < limit := cycleLimit?_eq_none_iff.mp hfree limit hmax
      have hfault : fault ≠ .cycleLimit limit := by
        rintro rfl
        exact step_ne_cycleLimit _ limit hfails
      exact
        { within := hwithin
          steps := hsteps
          cycles := hcycles
          finished := by simp [hending]
          left := .inr ⟨⟨fault, hfails⟩, by rw [after_succ', hleft]⟩
          halted := by simp [hending, hrun]
          limited := by simp [hending, hfault, hlt]
          failed := fun _ _ => ⟨fault, hfails, hending⟩ }

/-- A run under a cycle limit ends after the steps that its cycles allow, each
counted once.  It has halted if the machine does not run any more then, be it
after the last cycle that was left; it has met the limit if the machine runs
and its cycles are used up; else it ends with the fault of the next step.  Only
`HLT` and the service that ends the program stop a running machine. -/
theorem run_accounts (hlimit : c.maxCycles = some limit) :
    (∃ n, c.Accounts limit n) ∧
    ∀ d : Computer, d.running = true →
      (d.step.computer.running = false ↔ d.opcode? = some .hlt ∨ d.Calls .exit) := by
  obtain ⟨n, hproceeds, hends⟩ := run_ends hlimit
  refine ⟨⟨n, hends.accounts hlimit hproceeds⟩, fun d hrun => ?_⟩
  rw [← Bool.not_eq_true, d.running_step_iff]
  simp [hrun, Stops, or_iff_not_imp_left]

/-- A machine with a program of two instructions, which halts with the last of
its cycles. -/
def haltsWithLastCycle : Computer where
  cpu := { registers := { pc := 0 } }
  memory := ⟨[.rom [0x09, 0x0b]]⟩
  maxCycles := some 2
  files := .empty

/-- A program that halts with the last cycle it has: the run ends as halted, not
at the limit. -/
theorem run_accounts_last_cycle :
    haltsWithLastCycle.maxCycles = some 2 ∧
    (∃ n, haltsWithLastCycle.Accounts 2 n) ∧ haltsWithLastCycle.run.ending = .halted ∧
      haltsWithLastCycle.run.computer.cycles = 2 := by
  obtain ⟨hends, -⟩ := run_accounts (c := haltsWithLastCycle) rfl
  exact ⟨rfl, hends, rfl, rfl⟩

end StackRisc.Computer
