import StackRisc.Debugger.Session
import StackRisc.Proofs.Computer.Progress
import Mathlib.Order.Bounds.Basic

/-!
# StackRisc.Proofs.Debugger.Advance

What an advance does to a running machine.

* `advanceWithin_ends` — it stops at the first place where the machine is
  halted or at a breakpoint, or cannot make a further step;
* `advanceWithin_run` — without breakpoints it is a run;
* `advanceWithin_add` — without breakpoints it can be made in two parts;
* `Session.advance_refines` — the same of the commands of a session.
-/

namespace StackRisc.Debugger

variable {isStop : Address → Bool} {c d : Computer} {k n : Nat} {a : Advance}

/-! ## Where an advance stops -/

/-- An advance stops after so many steps: the next one meets an obstacle, or
a step was made and the machine is halted or at a stop. -/
def PausesAt (isStop : Address → Bool) (c : Computer) (n : Nat) : Prop :=
  (c.after n).obstacle? ≠ none ∨
    0 < n ∧ ((c.after n).running = false ∨ isStop (c.after n).cpu.registers.pc = true)

/-- How an advance ends that stops after so many steps.  A machine that is
halted counts as such before anything else, and a stop comes before an
obstacle. -/
inductive EndsAt (isStop : Address → Bool) (c : Computer) (n : Nat) : Advance → Prop
  | halted {log : Array Event} (hn : 0 < n) (hstop : (c.after n).running = false) :
      EndsAt isStop c n ⟨c.after n, true, log.push (haltedEvent (c.after n))⟩
  | paused {log : Array Event} (hn : 0 < n) (hrun : (c.after n).running = true)
      (hstop : isStop (c.after n).cpu.registers.pc = true) :
      EndsAt isStop c n
        ⟨c.after n, false, log.push (breakpointEvent (c.after n).cpu.registers.pc)⟩
  | stuck {log : Array Event} {fault : Fault} {d : Computer} (hrun : (c.after n).running = true)
      (hpass : n = 0 ∨ isStop (c.after n).cpu.registers.pc = false)
      (hstuck : (c.after n).obstacle? = some (fault, d)) :
      EndsAt isStop c n ⟨d, true, log.push (faultEvent fault)⟩

/-- A run proceeds as long as there is no pause. -/
theorem proceeds_of_not_pausesAt (hrun : c.running = true)
    (h : ∀ k < n, ¬ PausesAt isStop c k) : c.Proceeds n := by
  intro k hk
  have hgo := h k hk
  simp only [PausesAt, not_or, not_and, Decidable.not_not] at hgo
  refine ⟨?_, hgo.1⟩
  cases k with
  | zero => exact hrun
  | succ k => simpa using (hgo.2 (Nat.succ_pos k)).1

/-- Where nothing is in the way, the first step is made without a look at
breakpoints. -/
theorem not_pausesAt_zero (hfree : c.obstacle? = none) : ¬ PausesAt isStop c 0 := by
  simp [PausesAt, hfree]

/-- After a step that does not end an advance it goes on as from a new start. -/
theorem pausesAt_succ (hrun : c.step.computer.running = true)
    (hpass : isStop c.step.computer.cpu.registers.pc = false) :
    PausesAt isStop c (k + 1) ↔ PausesAt isStop c.step.computer k := by
  unfold PausesAt
  rw [Computer.after_succ]
  cases k with
  | zero => simp [hrun, hpass]
  | succ k => simp

/-- An advance ends as it does after its first step, unless it pauses there. -/
theorem EndsAt.succ (h : EndsAt isStop c.step.computer n a)
    (hpass : isStop c.step.computer.cpu.registers.pc = false) : EndsAt isStop c (n + 1) a := by
  cases h with
  | halted _ hstop => exact .halted (Nat.succ_pos n) hstop
  | paused _ hrun hstop => exact .paused (Nat.succ_pos n) hrun hstop
  | stuck hrun hgone hstuck =>
      refine .stuck hrun (.inr ?_) hstuck
      rcases hgone with rfl | hgone
      · exact hpass
      · exact hgone

theorem isLeast_one {P : Nat → Prop} (hzero : ¬ P 0) (h : P 1) : IsLeast {k | P k} 1 := by
  refine ⟨h, fun k hk => Nat.pos_of_ne_zero fun hk0 => hzero ?_⟩
  rwa [← hk0]

/-- The first pause after a step without one is the first pause of the rest. -/
theorem isLeast_succ {P Q : Nat → Prop} (hzero : ¬ P 0) (hsucc : ∀ k, P (k + 1) ↔ Q k)
    (h : IsLeast {k | Q k} n) : IsLeast {k | P k} (n + 1) := by
  refine ⟨(hsucc n).mpr h.1, fun k hk => ?_⟩
  cases k with
  | zero => exact absurd hk hzero
  | succ k => exact Nat.succ_le_succ (h.2 ((hsucc k).mp hk))

/-! ## One round of the loop -/

/-- An obstacle ends the advance and is reported. -/
theorem advanceWithin_stuck {fault : Fault} (h : c.obstacle? = some (fault, d))
    (isStop : Address → Bool) (fuel : Nat) (log : Array Event) :
    ∃ log' : Array Event,
      advanceWithin isStop (fuel + 1) c log = ⟨d, true, log'.push (faultEvent fault)⟩ := by
  rw [advanceWithin]
  rcases Computer.obstacle?_eq_some_iff.mp h with ⟨hlimit, rfl⟩ | ⟨hlimit, hfails, rfl⟩
  · exact ⟨log, by rw [hlimit]⟩
  · exact ⟨log ++ c.step.log, by simp only [hlimit, hfails]⟩

/-- Otherwise a step is made, and what it has led to decides. -/
theorem advanceWithin_free (h : c.obstacle? = none) (isStop : Address → Bool) (fuel : Nat)
    (log : Array Event) :
    advanceWithin isStop (fuel + 1) c log =
      if c.step.computer.running = false then
        ⟨c.step.computer, true, (log ++ c.step.log).push (haltedEvent c.step.computer)⟩
      else if isStop c.step.computer.cpu.registers.pc = true then
        ⟨c.step.computer, false,
          (log ++ c.step.log).push (breakpointEvent c.step.computer.cpu.registers.pc)⟩
      else advanceWithin isStop fuel c.step.computer (log ++ c.step.log) := by
  obtain ⟨hlimit, hok⟩ := Computer.obstacle?_eq_none_iff.mp h
  rw [advanceWithin]
  simp only [hlimit, hok, Bool.not_eq_true']

/-- An advance ends at the first place where it stops, if its fuel lasts until
there. -/
theorem advanceWithin_ends (isStop : Address → Bool) (hrun : c.running = true) (fuel : Nat)
    (log : Array Event) :
    (∃ n, IsLeast {k | PausesAt isStop c k} n ∧
      EndsAt isStop c n (advanceWithin isStop fuel c log)) ∨
    ((∀ k < fuel, ¬ PausesAt isStop c k) ∧ (c.after fuel).running = true ∧
      ∃ log', advanceWithin isStop fuel c log = ⟨c.after fuel, false, log'⟩) := by
  induction fuel generalizing c log with
  | zero => exact .inr ⟨fun _ hk => absurd hk (Nat.not_lt_zero _), hrun, log, rfl⟩
  | succ fuel ih =>
      cases hob : c.obstacle? with
      | some o =>
          obtain ⟨log', hends⟩ := advanceWithin_stuck hob isStop fuel log
          have hzero : PausesAt isStop c 0 := .inl (by simp [hob])
          rw [hends]
          exact .inl ⟨0, ⟨hzero, fun k _ => Nat.zero_le k⟩, .stuck hrun (.inl rfl) hob⟩
      | none =>
          have hzero : ¬ PausesAt isStop c 0 := not_pausesAt_zero hob
          have hone (h : PausesAt isStop c 1) : IsLeast {k | PausesAt isStop c k} 1 :=
            isLeast_one hzero h
          rw [advanceWithin_free hob]
          split
          · next hstop =>
              exact .inl ⟨1, hone (.inr ⟨Nat.one_pos, .inl hstop⟩), .halted Nat.one_pos hstop⟩
          split
          · next hgo hstop =>
              have hgo : c.step.computer.running = true := by simpa using hgo
              exact .inl ⟨1, hone (.inr ⟨Nat.one_pos, .inr hstop⟩), .paused Nat.one_pos hgo hstop⟩
          · next hgo hpass =>
              have hgo : c.step.computer.running = true := by simpa using hgo
              have hpass : isStop c.step.computer.cpu.registers.pc = false := by simpa using hpass
              have hsucc k := pausesAt_succ (k := k) hgo hpass
              rcases ih hgo (log ++ c.step.log) with ⟨n, hleast, hends⟩ | ⟨hnone, hstill, hspent⟩
              · exact .inl ⟨n + 1, isLeast_succ hzero hsucc hleast, hends.succ hpass⟩
              · refine .inr ⟨fun k hk => ?_, hstill, hspent⟩
                cases k with
                | zero => exact hzero
                | succ k => exact fun h => hnone k (by omega) ((hsucc k).mp h)

/-! ## Advances in parts -/

/-- What was reported before an advance stays in front. -/
theorem advanceWithin_append (isStop : Address → Bool) (fuel : Nat) (c : Computer)
    (log log' : Array Event) :
    advanceWithin isStop fuel c (log ++ log') =
      { advanceWithin isStop fuel c log' with
        log := log ++ (advanceWithin isStop fuel c log').log } := by
  have hassoc (log' : Array Event) (l : List Event) :
      log ++ log' ++ l = log ++ (log' ++ l) := Array.ext' (by simp)
  induction fuel generalizing c log' with
  | zero => rfl
  | succ fuel ih =>
      simp only [advanceWithin, hassoc, ih]
      cases c.cycleLimit? with
      | some fault => simp
      | none =>
          cases c.step.result with
          | error fault => simp
          | ok =>
              dsimp only
              split
              · simp
              · split <;> simp

/-- Without stops an advance can be made in two parts, unless it ends in the first. -/
theorem advanceWithin_add (fuel fuel' : Nat) (log : Array Event)
    (h : (advanceWithin (fun _ => false) fuel c log).halted = false) :
    advanceWithin (fun _ => false) (fuel + fuel') c log =
      advanceWithin (fun _ => false) fuel'
        (advanceWithin (fun _ => false) fuel c log).computer
        (advanceWithin (fun _ => false) fuel c log).log := by
  induction fuel generalizing c log with
  | zero => rw [Nat.zero_add, advanceWithin]
  | succ fuel ih =>
      rw [Nat.succ_add_eq_add_succ, Nat.add_succ]
      cases hob : c.obstacle? with
      | some o =>
          obtain ⟨log', hends⟩ := advanceWithin_stuck hob (fun _ => false) fuel log
          rw [hends] at h
          contradiction
      | none =>
          simp only [advanceWithin_free hob, Bool.false_eq_true, if_false] at h ⊢
          split at h
          · contradiction
          · next hgo =>
              simp only [hgo]
              exact ih _ h

/-! ## Advances and runs -/

/-- An advance reports the ending of a run. -/
inductive SameEnding : Ending → Advance → Prop
  | halted {c : Computer} {log : Array Event} :
      SameEnding .halted ⟨c, true, log.push (haltedEvent c)⟩
  | faulted {c : Computer} {fault : Fault} {log : Array Event} :
      SameEnding (.faulted fault) ⟨c, true, log.push (faultEvent fault)⟩

/-- Without stops an advance is a run. -/
theorem advanceWithin_run (hrun : c.running = true) (fuel : Nat) (log log' : Array Event) :
    (advanceWithin (fun _ => false) fuel c log).computer =
      (Computer.runWithin fuel c log').computer ∧
    ((Computer.runWithin fuel c log').ending ≠ .unfinished →
      SameEnding (Computer.runWithin fuel c log').ending
        (advanceWithin (fun _ => false) fuel c log)) := by
  induction fuel generalizing c log log' with
  | zero => exact ⟨rfl, fun h => absurd rfl h⟩
  | succ fuel ih =>
      cases hob : c.obstacle? with
      | some o =>
          obtain ⟨reported, hends⟩ := advanceWithin_stuck hob (fun _ => false) fuel log
          obtain ⟨reported', hends'⟩ := Computer.runWithin_stuck hrun hob fuel log'
          rw [hends, hends']
          exact ⟨rfl, fun _ => .faulted⟩
      | none =>
          simp only [advanceWithin_free hob, Computer.runWithin_free hrun hob, Bool.false_eq_true,
            if_false]
          split
          · next hstop =>
              -- The run needs another round to see that the machine is halted.
              cases fuel with
              | zero => exact ⟨rfl, fun h => absurd rfl h⟩
              | succ fuel =>
                  rw [Computer.runWithin_halted hstop]
                  exact ⟨rfl, fun _ => .halted⟩
          · next hgo => exact ih (by simpa using hgo) _ _

/-! ## Sessions -/

/-- Without breakpoints, a run that proceeds does not pause. -/
theorem not_pausesAt_of_proceeds (h : c.Proceeds n) (hk : k < n) :
    ¬ PausesAt (fun _ => false) c k := by
  obtain ⟨hrun, hfree⟩ := h k hk
  simp [PausesAt, hrun, hfree]

/-- On a running machine an advance to the next breakpoint makes the least
number of steps after which the machine is halted, at a breakpoint or cannot
make a further one, and ends as `EndsAt` says; without a cycle limit there may
be no such number in the range of the cycle counter.  Without breakpoints it
comes to the machine and the ending of a run.  An advance by a number of
instructions can be made in two parts, unless the first ends it. -/
theorem Session.advance_refines (s : Session) (hrun : s.computer.running = true) :
    ((∃ n, IsLeast {k | PausesAt s.breakpoints.contains s.computer k} n ∧
        EndsAt s.breakpoints.contains s.computer n
          (advanceToBreak s.breakpoints s.computer)) ∨
      (s.computer.maxCycles = none ∧
        ∀ k < UInt64.size, ¬ PausesAt s.breakpoints.contains s.computer k)) ∧
    (s.breakpoints = [] →
      (advanceToBreak s.breakpoints s.computer).computer = s.computer.run.computer ∧
      (SameEnding s.computer.run.ending (advanceToBreak s.breakpoints s.computer) ∨
        (s.computer.maxCycles = none ∧
          ∀ k < UInt64.size, ¬ PausesAt s.breakpoints.contains s.computer k))) ∧
    ∀ p q, (advanceBy p s.computer).halted = false →
      advanceBy (p + q) s.computer =
        { advanceBy q (advanceBy p s.computer).computer with
          log := (advanceBy p s.computer).log ++
            (advanceBy q (advanceBy p s.computer).computer).log } := by
  refine ⟨?_, fun hnone => ?_, fun p q hgo => ?_⟩
  · rcases advanceWithin_ends s.breakpoints.contains hrun s.computer.fuel #[] with hends | ⟨hgo, -⟩
    · exact .inl hends
    · obtain ⟨hlimit, hfuel⟩ := (proceeds_of_not_pausesAt hrun hgo).unlimited
      rw [hfuel] at hgo
      exact .inr ⟨hlimit, hgo⟩
  · rw [hnone]
    obtain ⟨hcomputer, hending⟩ := advanceWithin_run hrun s.computer.fuel #[] #[]
    refine ⟨hcomputer, ?_⟩
    rcases Computer.runWithin_ends s.computer.fuel s.computer #[] with
      ⟨n, -, -, hends⟩ | ⟨hproceeds, -, -⟩
    · refine .inl (hending fun h => ?_)
      rw [h] at hends
      cases hends
    · obtain ⟨hlimit, hfuel⟩ := hproceeds.unlimited
      rw [hfuel] at hproceeds
      exact .inr ⟨hlimit, fun k hk => not_pausesAt_of_proceeds hproceeds hk⟩
  · have happend := advanceWithin_append (fun _ => false) q (advanceBy p s.computer).computer
      (advanceBy p s.computer).log #[]
    rw [Array.append_empty] at happend
    exact (advanceWithin_add p q #[] hgo).trans happend

/-- A program that halts with its only cycle, the one the limit allows. -/
def haltsAtLimit : Session :=
  .start (.ofImage { maxCycles := some 1, files := .empty } [0x0b]) {}

/-- A program that halts with the last cycle it has: the advance ends where the
run does. -/
theorem Session.advance_refines_hlt :
    haltsAtLimit.computer.running = true ∧
    (∃ n, IsLeast {k | PausesAt [].contains haltsAtLimit.computer k} n ∧
      EndsAt [].contains haltsAtLimit.computer n (advanceToBreak [] haltsAtLimit.computer)) ∧
    (advanceToBreak [] haltsAtLimit.computer).computer = haltsAtLimit.computer.run.computer := by
  have hrun : haltsAtLimit.computer.running = true := rfl
  obtain ⟨hends, hrefines, -⟩ := Session.advance_refines haltsAtLimit hrun
  refine ⟨hrun, hends.resolve_right fun h => ?_, (hrefines rfl).1⟩
  exact absurd h.1 nofun

end StackRisc.Debugger
