import StackRisc.Computer.Run
import StackRisc.Proofs.Computer.Surroundings
import Mathlib.Logic.Function.Iterate

/-!
# StackRisc.Proofs.Computer.Progress

How far a machine gets.  `c.after n` is the machine after `n` steps, and
`c.Proceeds n` says that a run gets through them: before each the machine
runs, has cycles left, and the step succeeds.  What keeps it from a further
step is its obstacle.  Each loop that steps a machine leaves it in a place of
its run (`Computer.Gets`): still going, halted, or at an obstacle.

* `Computer.Gets.cycles` — the cycles counted are the steps that succeeded;
* `Computer.Proceeds.le_limit` — no run exceeds its cycle limit;
* `Computer.Gets.trans`, `Computer.Gets.offDisplay` — a run can be taken up
  where it was left, whatever the display did meanwhile.
-/

namespace StackRisc.Computer

variable {c c' d d' : Computer} {m n : Nat} {fault : Fault}

/-! ## Steps in a row -/

/-- The machine after some steps, whatever their results. -/
def after (c : Computer) (n : Nat) : Computer := (fun d => d.step.computer)^[n] c

@[simp] theorem after_zero (c : Computer) : c.after 0 = c := rfl

/-- The first step, and then the others. -/
theorem after_succ (c : Computer) (n : Nat) : c.after (n + 1) = c.step.computer.after n := rfl

/-- The last step comes behind the others. -/
theorem after_succ' (c : Computer) (n : Nat) : c.after (n + 1) = (c.after n).step.computer :=
  Function.iterate_succ_apply' _ n c

/-- Steps are made one after the other. -/
theorem after_add (c : Computer) (m n : Nat) : c.after (m + n) = (c.after m).after n := by
  rw [Nat.add_comm]
  exact Function.iterate_add_apply _ n m c

/-- Steps leave the limit of cycles. -/
theorem maxCycles_after (c : Computer) (n : Nat) : (c.after n).maxCycles = c.maxCycles := by
  induction n with
  | zero => rfl
  | succ n ih => rw [after_succ', maxCycles_step, ih]

/-- Steps leave what the host has given. -/
theorem host_after (c : Computer) (n : Nat) : (c.after n).host = c.host := by
  induction n with
  | zero => rfl
  | succ n ih => rw [after_succ', host_step, ih]

/-! ## Obstacles -/

/-- The limit is not in the way before it is reached. -/
theorem cycleLimit?_eq_none_iff :
    c.cycleLimit? = none ↔ ∀ limit, c.maxCycles = some limit → c.cycles < limit := by
  unfold cycleLimit?
  cases c.maxCycles with
  | none => simp
  | some limit => simp

/-- What keeps a machine from a further step, with the machine that is left:
its cycles are used up, or the step faults. -/
def obstacle? (c : Computer) : Option (Fault × Computer) :=
  match c.cycleLimit? with
  | some fault => some (fault, c)
  | none =>
    match c.step.result with
    | .ok () => none
    | .error fault => some (fault, c.step.computer)

/-- Nothing is in the way of a step within the limit that succeeds. -/
theorem obstacle?_eq_none_iff :
    c.obstacle? = none ↔ c.cycleLimit? = none ∧ c.step.result = .ok () := by
  unfold obstacle?
  cases c.cycleLimit? with
  | some fault => simp
  | none => cases c.step.result <;> simp

/-- In the way is the limit, or else the failure of the step. -/
theorem obstacle?_eq_some_iff :
    c.obstacle? = some (fault, d) ↔
      (c.cycleLimit? = some fault ∧ c = d) ∨
      (c.cycleLimit? = none ∧ c.step.result = .error fault ∧ c.step.computer = d) := by
  unfold obstacle?
  cases c.cycleLimit? with
  | some fault => simp
  | none => cases c.step.result <;> simp

/-- No cycle is counted at an obstacle. -/
theorem cycles_of_obstacle (h : c.obstacle? = some (fault, d)) : d.cycles = c.cycles := by
  rcases obstacle?_eq_some_iff.mp h with ⟨-, rfl⟩ | ⟨-, hfails, rfl⟩
  · rfl
  · exact cycles_step_error hfails

/-! ## Runs without an obstacle -/

/-- A run gets through the first steps: before each the machine runs, has
cycles left, and the step succeeds. -/
def Proceeds (c : Computer) (n : Nat) : Prop :=
  ∀ k < n, (c.after k).running = true ∧ (c.after k).obstacle? = none

theorem proceeds_zero (c : Computer) : c.Proceeds 0 := fun _ hk => absurd hk (Nat.not_lt_zero _)

/-- One step that is free, and then the others. -/
theorem proceeds_succ (hrun : c.running = true) (hfree : c.obstacle? = none)
    (h : c.step.computer.Proceeds n) : c.Proceeds (n + 1) := by
  intro k hk
  cases k with
  | zero => exact ⟨hrun, hfree⟩
  | succ k => exact h k (Nat.lt_of_succ_lt_succ hk)

/-- A run that proceeds has proceeded before. -/
theorem Proceeds.mono (h : c.Proceeds n) (hle : m ≤ n) : c.Proceeds m :=
  fun k hk => h k (Nat.lt_of_lt_of_le hk hle)

/-- A run proceeds part by part. -/
theorem Proceeds.add (h : c.Proceeds m) (h' : (c.after m).Proceeds n) : c.Proceeds (m + n) := by
  intro k hk
  by_cases hfirst : k < m
  · exact h k hfirst
  · obtain ⟨j, rfl⟩ := Nat.exists_eq_add_of_le (Nat.le_of_not_lt hfirst)
    rw [after_add]
    exact h' j (by omega)

/-- Every step that succeeds counts one cycle. -/
theorem Proceeds.cycles (h : c.Proceeds n) : (c.after n).cycles = c.cycles + n := by
  induction n with
  | zero => rfl
  | succ n ih =>
      have hbefore := ih (h.mono (Nat.le_succ n))
      have hstep := (obstacle?_eq_none_iff.mp (h n (Nat.lt_succ_self n)).2).2
      rw [after_succ', cycles_step_ok hstep, hbefore, Nat.add_assoc]

/-- The steps of a run do not exceed the cycles that were left. -/
theorem Proceeds.le_limit (h : c.Proceeds n) {limit : Nat} (hlimit : c.maxCycles = some limit) :
    n ≤ limit - c.cycles := by
  cases n with
  | zero => exact Nat.zero_le _
  | succ n =>
      have hbefore := (h.mono (Nat.le_succ n)).cycles
      have hfree := (obstacle?_eq_none_iff.mp (h n (Nat.lt_succ_self n)).2).1
      have hleft := cycleLimit?_eq_none_iff.mp hfree limit ((c.maxCycles_after n).trans hlimit)
      omega

/-! ## Whole runs -/

/-- A halted machine ends its run. -/
theorem runWithin_halted (h : c.running = false) (fuel : Nat) (log : Array Event) :
    runWithin (fuel + 1) c log = ⟨.halted, c, log.push c.haltedEvent⟩ := by
  rw [runWithin, h]
  rfl

/-- So does an obstacle, with its fault. -/
theorem runWithin_stuck (hrun : c.running = true) (h : c.obstacle? = some (fault, d))
    (fuel : Nat) (log : Array Event) :
    ∃ log', runWithin (fuel + 1) c log = ⟨.faulted fault, d, log'⟩ := by
  rw [runWithin, if_pos hrun]
  rcases obstacle?_eq_some_iff.mp h with ⟨hlimit, rfl⟩ | ⟨hlimit, hfails, rfl⟩
  · exact ⟨log, by rw [hlimit]⟩
  · exact ⟨log ++ c.step.log, by simp only [hlimit, hfails]⟩

/-- Otherwise one step is made. -/
theorem runWithin_free (hrun : c.running = true) (h : c.obstacle? = none) (fuel : Nat)
    (log : Array Event) :
    runWithin (fuel + 1) c log = runWithin fuel c.step.computer (log ++ c.step.log) := by
  obtain ⟨hlimit, hok⟩ := obstacle?_eq_none_iff.mp h
  rw [runWithin, if_pos hrun]
  simp only [hlimit, hok]

/-- Only without a limit is the fuel of a machine spent. -/
theorem Proceeds.unlimited (h : c.Proceeds c.fuel) :
    c.maxCycles = none ∧ c.fuel = UInt64.size := by
  cases hlimit : c.maxCycles with
  | none => exact ⟨rfl, by rw [fuel, hlimit]⟩
  | some limit =>
      have hfuel : c.fuel = limit - c.cycles + 1 := by rw [fuel, hlimit]
      have hle := h.le_limit hlimit
      omega

/-- How a run ends after so many steps. -/
inductive RunEnds (c : Computer) (n : Nat) : Ending → Computer → Prop
  | halted (hstop : (c.after n).running = false) : RunEnds c n .halted (c.after n)
  | faulted {fault : Fault} {d : Computer} (hrun : (c.after n).running = true)
      (hstuck : (c.after n).obstacle? = some (fault, d)) : RunEnds c n (.faulted fault) d

/-- A run ends as it does after its first step. -/
theorem RunEnds.succ {e : Ending} (h : RunEnds c.step.computer n e d) : RunEnds c (n + 1) e d := by
  cases h with
  | halted hstop => exact .halted hstop
  | faulted hrun hstuck => exact .faulted hrun hstuck

/-- A run goes on until the machine is halted or at an obstacle, or its fuel
is spent. -/
theorem runWithin_ends (fuel : Nat) (c : Computer) (log : Array Event) :
    (∃ n < fuel, c.Proceeds n ∧
      RunEnds c n (runWithin fuel c log).ending (runWithin fuel c log).computer) ∨
    (c.Proceeds fuel ∧ (runWithin fuel c log).ending = .unfinished ∧
      (runWithin fuel c log).computer = c.after fuel) := by
  induction fuel generalizing c log with
  | zero => exact .inr ⟨c.proceeds_zero, rfl, rfl⟩
  | succ fuel ih =>
      cases hrun : c.running with
      | false =>
          rw [runWithin_halted hrun]
          exact .inl ⟨0, Nat.succ_pos fuel, c.proceeds_zero, .halted hrun⟩
      | true =>
          cases hob : c.obstacle? with
          | some o =>
              obtain ⟨log', hends⟩ := runWithin_stuck hrun hob fuel log
              rw [hends]
              exact .inl ⟨0, Nat.succ_pos fuel, c.proceeds_zero, .faulted hrun hob⟩
          | none =>
              rw [runWithin_free hrun hob]
              rcases ih c.step.computer (log ++ c.step.log) with
                ⟨n, hn, hproceeds, hends⟩ | ⟨hproceeds, hends⟩
              · exact .inl
                  ⟨n + 1, Nat.succ_lt_succ hn, proceeds_succ hrun hob hproceeds, hends.succ⟩
              · exact .inr ⟨proceeds_succ hrun hob hproceeds, hends⟩

/-! ## Places of a run -/

/-- Where a run is after some steps that succeeded: still going, halted, or at
an obstacle.  The flag tells whether it has ended. -/
inductive Gets (c : Computer) (n : Nat) : Bool → Computer → Prop
  | going (h : c.Proceeds n) (hrun : (c.after n).running = true) : Gets c n false (c.after n)
  | halted (h : c.Proceeds n) (hstop : (c.after n).running = false) : Gets c n true (c.after n)
  | stuck {fault : Fault} {d : Computer} (h : c.Proceeds n) (hrun : (c.after n).running = true)
      (hstuck : (c.after n).obstacle? = some (fault, d)) : Gets c n true d

variable {ended : Bool}

theorem Gets.proceeds (h : c.Gets n ended d) : c.Proceeds n := by
  cases h <;> assumption

theorem Gets.running (h : c.Gets n false d) : d.running = true := by
  cases h
  assumption

/-- Every step takes a cycle. -/
theorem Gets.cycles (h : c.Gets n ended d) : d.cycles = c.cycles + n := by
  have hafter := h.proceeds.cycles
  cases h with
  | going => exact hafter
  | halted => exact hafter
  | stuck _ _ hstuck => rw [cycles_of_obstacle hstuck, hafter]

/-- A place of a run is reached by the steps that succeeded, and at most one
more that faults. -/
theorem Gets.eq_after (h : c.Gets n ended d) :
    d = c.after n ∨
      (∃ fault, (c.after n).running = true ∧ (c.after n).cycleLimit? = none ∧
        (c.after n).step.result = .error fault) ∧ d = c.after (n + 1) := by
  cases h with
  | going | halted => exact .inl rfl
  | stuck _ hrun hstuck =>
      rcases obstacle?_eq_some_iff.mp hstuck with ⟨-, hsame⟩ | ⟨hlimit, hfails, hleft⟩
      · exact .inl hsame.symm
      · rw [after_succ', hleft]
        exact .inr ⟨⟨_, hrun, hlimit, hfails⟩, rfl⟩

theorem Gets.host_eq (h : c.Gets n ended d) : d.host = c.host := by
  rcases h.eq_after with rfl | ⟨-, rfl⟩
  · exact c.host_after n
  · exact c.host_after (n + 1)

/-- A run that is still going can be taken up again. -/
theorem Gets.trans (h : c.Gets m false d) (h' : d.Gets n ended d') : c.Gets (m + n) ended d' := by
  cases h with
  | going hfirst hrun =>
      cases h' with
      | going hsecond hrun' =>
          rw [← after_add] at hrun' ⊢
          exact .going (hfirst.add hsecond) hrun'
      | halted hsecond hstop =>
          rw [← after_add] at hstop ⊢
          exact .halted (hfirst.add hsecond) hstop
      | stuck hsecond hrun' hstuck =>
          rw [← after_add] at hrun' hstuck
          exact .stuck (hfirst.add hsecond) hrun' hstuck

/-! ## Runs and the display -/

namespace SameOffDisplay

variable (h : c.SameOffDisplay c')
include h

/-- Steps keep machines equal apart from their displays. -/
theorem after (n : Nat) : (c.after n).SameOffDisplay (c'.after n) := by
  induction n with
  | zero => exact h
  | succ n ih =>
      rw [after_succ', after_succ']
      exact ih.step.2

/-- The display does not count for the limit. -/
theorem cycleLimit? : c.cycleLimit? = c'.cycleLimit? := by
  unfold Computer.cycleLimit?
  rw [h.maxCycles_eq, h.cycles_eq]

theorem obstacle?_none (hfree : c.obstacle? = none) : c'.obstacle? = none := by
  rw [obstacle?_eq_none_iff] at hfree ⊢
  rwa [← h.cycleLimit?, ← h.step.1]

/-- Nor does it for what is in the way. -/
theorem obstacle?_some (hstuck : c.obstacle? = some (fault, d)) :
    ∃ d', c'.obstacle? = some (fault, d') ∧ d.SameOffDisplay d' := by
  rcases obstacle?_eq_some_iff.mp hstuck with ⟨hlimit, rfl⟩ | ⟨hlimit, hfails, rfl⟩
  · exact ⟨c', obstacle?_eq_some_iff.mpr (.inl ⟨h.cycleLimit? ▸ hlimit, rfl⟩), h⟩
  · exact ⟨c'.step.computer, obstacle?_eq_some_iff.mpr
      (.inr ⟨h.cycleLimit? ▸ hlimit, h.step.1 ▸ hfails, rfl⟩), h.step.2⟩

theorem proceeds (hc : c.Proceeds n) : c'.Proceeds n := by
  intro k hk
  obtain ⟨hrun, hfree⟩ := hc k hk
  exact ⟨(h.after k).running_eq ▸ hrun, (h.after k).obstacle?_none hfree⟩

end SameOffDisplay

/-- Machines that differ in the display alone get equally far. -/
theorem Gets.offDisplay (hc : c.Gets n ended d) (h : c.SameOffDisplay c') :
    ∃ d', c'.Gets n ended d' ∧ d.SameOffDisplay d' := by
  have hrunning := (h.after n).running_eq
  have hproceeds := h.proceeds hc.proceeds
  cases hc with
  | going _ hrun => exact ⟨c'.after n, .going hproceeds (hrunning ▸ hrun), h.after n⟩
  | halted _ hstop => exact ⟨c'.after n, .halted hproceeds (hrunning ▸ hstop), h.after n⟩
  | stuck _ hrun hstuck =>
      obtain ⟨d', hstuck', hsame⟩ := (h.after n).obstacle?_some hstuck
      exact ⟨d', .stuck hproceeds (hrunning ▸ hrun) hstuck', hsame⟩

/-- Taking a picture changes the display alone. -/
theorem sameOffDisplay_receive (c : Computer) : c.SameOffDisplay c.receive.2 := by
  unfold receive
  split <;> rfl

end StackRisc.Computer
