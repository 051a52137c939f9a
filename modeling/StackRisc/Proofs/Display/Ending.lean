import StackRisc.Computer.Run
import StackRisc.Proofs.Display.Handoff

/-!
# StackRisc.Proofs.Display.Ending

Whole runs in front of a display, and what becomes of the frames requested
during them.  A request waits while the display is busy, and is settled by the
first step that finds it free: a frame is delivered, or VRAM is too small for
one.  A run that halts presents nothing any more, so a request that still waits
then is never settled.

* `Showing.run_ending` — a run ends in the same way whatever the display does;
* `blits_of_halted_run` — a blit is pending after a run that halted if each step
  since a request found the display busy, and else all requests are settled;
* `blit_pending_at_halt` — a program that loses its last frame.
-/

namespace StackRisc

open StackRisc.Action

/-! ## Settled requests -/

namespace DisplayLink

/-- A display is attached and listens. -/
def Serving (link : Option DisplayLink) : Prop := ∃ l, link = some l ∧ l.connected = true

theorem Serving.listening {link : Option DisplayLink} (h : Serving link) : Listening link := by
  obtain ⟨l, rfl, hlistens⟩ := h
  rintro _ ⟨⟩
  exact hlistens

end DisplayLink

namespace HandsOver

variable {asked fits : Prop} {link link' : Option DisplayLink} {frame : Option Frame}
  {pending : Bool}

/-- Presenting leaves the display attached and listening. -/
theorem serving (h : HandsOver asked link fits frame link' pending)
    (hserving : DisplayLink.Serving link) : DisplayLink.Serving link' := by
  cases h with
  | idle | unattached | dropped | busy => exact hserving
  | disconnected _ hlink hgone => simp [hserving.listening _ hlink] at hgone
  | delivered _ _ hlistens => exact ⟨_, rfl, hlistens⟩

/-- A display that is not busy gets the frame of a request, unless VRAM is too
small for it. -/
theorem settled (h : HandsOver asked link fits frame link' false) (hasked : asked)
    (hserving : DisplayLink.Serving link) : frame.isSome ∨ ¬ fits := by
  cases h with
  | idle h => contradiction
  | unattached _ hnone => simp [DisplayLink.Serving, hnone] at hserving
  | dropped _ hfits => exact .inr hfits
  | disconnected _ hlink hgone => simp [hserving.listening _ hlink] at hgone
  | delivered => exact .inl rfl

end HandsOver

namespace Computer

variable {c : Computer}

/-- A step keeps a link served. -/
theorem serving_step (h : DisplayLink.Serving c.link) :
    DisplayLink.Serving c.step.computer.link := by
  cases hr : c.step.result with
  | ok => exact (handsOver_step hr).serving h
  | error fault =>
      rw [(step_error_keeps hr).2.1]
      exact h

/-- The step delivers a frame to the display, or has none to deliver because
VRAM is too small. -/
def Settles (c : Computer) : Prop := c.delivery?.isSome ∨ ¬ c.step.computer.Fits

/-- A step that does not find the display busy settles what is asked for. -/
theorem settles_of_not_findsBusy (h : c.step.result = .ok ()) (hasked : c.Asked)
    (hserving : DisplayLink.Serving c.link) (hbusy : ¬ c.FindsBusy) : c.Settles := by
  have hpending : c.step.computer.display.blitRequested = false := by
    rw [← Bool.not_eq_true, pending_step_ok_iff h]
    exact fun ⟨_, hfound⟩ => hbusy hfound
  have hhands := handsOver_step h
  rw [hpending] at hhands
  exact hhands.settled hasked hserving

end Computer

namespace Showing

variable {s : Showing} {acts : Nat → List DisplayAct} {j n : Nat}

theorem serving_take (h : DisplayLink.Serving s.computer.link) :
    DisplayLink.Serving (s.act .take).computer.link := by
  obtain ⟨l, hlink, hlistens⟩ := h
  refine ⟨{ l with buffer := none }, ?_, hlistens⟩
  simp only [act, Computer.receive, hlink, DisplayLink.receive]

/-- So does a pause in which the display does not hang up. -/
theorem serving_pause {acts : List DisplayAct} (h : DisplayLink.Serving s.computer.link)
    (hstays : .hangUp ∉ acts) : DisplayLink.Serving (s.pause acts).computer.link :=
  pause_induction (P := fun t => DisplayLink.Serving t.computer.link) h fun _ a ha ht => by
    cases a with
    | take => exact serving_take ht
    | hangUp => contradiction

/-- So does a run during which it does not. -/
theorem serving_after (h : DisplayLink.Serving s.computer.link)
    (hstays : ∀ k, .hangUp ∉ acts k) (n : Nat) :
    DisplayLink.Serving (s.after acts n).computer.link := by
  induction n with
  | zero => exact serving_pause h (hstays 0)
  | succ n ih => exact serving_pause (Computer.serving_step ih) (hstays (n + 1))

/-- A request that still waits is to be presented after the next instruction. -/
theorem Waits.asked (h : s.Waits acts j n) (hj : j ≤ n)
    (hidle : s.computer.display.blitRequested = false) : (s.after acts n).computer.Asked := by
  rcases Nat.lt_or_eq_of_le hj with hj | rfl
  · exact .inl ((pending_after_iff hidle n).mpr ⟨j, hj, h⟩)
  · exact .inr (waits_self.mp h)

/-- A request waits for the display until a step settles it. -/
theorem waits_or_settles (hidle : s.computer.display.blitRequested = false)
    (hserving : DisplayLink.Serving s.computer.link) (hstays : ∀ k, .hangUp ∉ acts k)
    (hj : j ≤ n) (hcalls : (s.after acts j).computer.Calls .blit) :
    s.Waits acts j n ∨
      ∃ i, j ≤ i ∧ i < n ∧ s.Waits acts j i ∧ (s.after acts i).computer.Settles := by
  induction hj with
  | refl => exact .inl (waits_self.mpr hcalls)
  | @step n hj ih =>
      rcases ih with hwaits | ⟨i, hji, hin, hsettled⟩
      · by_cases hnext : (s.after acts n).computer.step.result = .ok () →
            (s.after acts n).computer.FindsBusy
        · exact .inl ((waits_succ hj).mpr ⟨hwaits, hnext⟩)
        · obtain ⟨hok, hfree⟩ := Classical.not_imp.mp hnext
          have hserved := serving_after hserving hstays n
          exact .inr ⟨n, hj, Nat.lt_succ_self n, hwaits,
            Computer.settles_of_not_findsBusy hok (hwaits.asked hj hidle) hserved hfree⟩
      · exact .inr ⟨i, hji, Nat.lt_succ_of_lt hin, hsettled⟩

/-! ## Whole runs -/

/-- Step while the machine runs, with what the display does before each step
and after the last. -/
def runWithin (s : Showing) : (fuel : Nat) → (acts : Nat → List DisplayAct) → Ending × Showing
  | 0, acts => (.unfinished, s.pause (acts 0))
  | fuel + 1, acts =>
    let t := s.pause (acts 0)
    if t.computer.running then
      match t.computer.cycleLimit? with
      | some fault => (.faulted fault, t)
      | none =>
        match t.computer.step.result with
        | .ok () => t.step.runWithin fuel fun k => acts (k + 1)
        | .error fault => (.faulted fault, t.step.pause (acts 1))
    else (.halted, t)

/-- Step until the program halts, with what the display does meanwhile. -/
def run (s : Showing) (acts : Nat → List DisplayAct) : Ending × Showing :=
  s.runWithin s.computer.fuel acts

/-- The first step is made after what the display does first. -/
theorem after_succ' (s : Showing) (acts : Nat → List DisplayAct) (n : Nat) :
    s.after acts (n + 1) = (s.pause (acts 0)).step.after (fun k => acts (k + 1)) n := by
  induction n with
  | zero => rfl
  | succ n ih => rw [after, ih, after]

section

variable (fuel : Nat)

/-- A halted machine ends the run. -/
theorem runWithin_stop (h : (s.pause (acts 0)).computer.running = false) :
    s.runWithin (fuel + 1) acts = (.halted, s.pause (acts 0)) := by
  simp [runWithin, h]

/-- So does an obstacle. -/
theorem runWithin_stuck {fault : Fault} {d : Computer}
    (hrun : (s.pause (acts 0)).computer.running = true)
    (h : (s.pause (acts 0)).computer.obstacle? = some (fault, d)) :
    (s.runWithin (fuel + 1) acts).1 = .faulted fault := by
  rcases Computer.obstacle?_eq_some_iff.mp h with ⟨hlimit, -⟩ | ⟨hlimit, hfails, -⟩
  · simp [runWithin, hrun, hlimit]
  · simp [runWithin, hrun, hlimit, hfails]

/-- Otherwise a step is made, and the display acts again. -/
theorem runWithin_free (hrun : (s.pause (acts 0)).computer.running = true)
    (h : (s.pause (acts 0)).computer.obstacle? = none) :
    s.runWithin (fuel + 1) acts =
      (s.pause (acts 0)).step.runWithin fuel fun k => acts (k + 1) := by
  obtain ⟨hlimit, hok⟩ := Computer.obstacle?_eq_none_iff.mp h
  simp [runWithin, hrun, hlimit, hok]

end

/-- What the display does has no influence on how a run ends. -/
theorem runWithin_ending {c : Computer} (h : c.SameOffDisplay s.computer) (fuel : Nat)
    (log : Array Event) :
    (s.runWithin fuel acts).1 = (c.runWithin fuel log).ending := by
  induction fuel generalizing s c acts log with
  | zero => rfl
  | succ fuel ih =>
      have hpause := h.trans (s.sameOffDisplay_pause (acts 0))
      cases hrun : c.running with
      | false =>
          rw [Computer.runWithin_halted hrun, runWithin_stop fuel (hpause.running_eq ▸ hrun)]
      | true =>
          have hrun' := hpause.running_eq ▸ hrun
          cases hob : c.obstacle? with
          | some o =>
              obtain ⟨log', hends⟩ := Computer.runWithin_stuck hrun hob fuel log
              obtain ⟨d, hob', -⟩ := hpause.obstacle?_some hob
              rw [hends, runWithin_stuck fuel hrun' hob']
          | none =>
              rw [Computer.runWithin_free hrun hob,
                runWithin_free fuel hrun' (hpause.obstacle?_none hob)]
              exact ih hpause.step.2 _

/-- A run in front of a display ends as one without. -/
theorem run_ending (s : Showing) (acts : Nat → List DisplayAct) :
    (s.run acts).1 = s.computer.run.ending :=
  runWithin_ending (.refl s.computer) _ _

/-- In front of a display that does nothing a machine is left as without one. -/
theorem runWithin_idle (s : Showing) (fuel : Nat) (log : Array Event) :
    (s.runWithin fuel fun _ => []).2.computer = (s.computer.runWithin fuel log).computer := by
  induction fuel generalizing s log with
  | zero => rfl
  | succ fuel ih =>
      rw [runWithin, Computer.runWithin, pause, List.foldl_nil]
      cases s.computer.running with
      | false => rfl
      | true =>
          cases s.computer.cycleLimit? with
          | some fault => rfl
          | none =>
              cases hr : s.computer.step.result with
              | error fault =>
                  simp only [hr]
                  rfl
              | ok =>
                  simp only [hr]
                  exact ih s.step _

/-- Frames are shown by a display that takes each as soon as it is delivered. -/
theorem runWithin_taking (s : Showing) (fuel : Nat) (log : Array Event) (frames : Array Frame)
    (hframes : frames.toList = (s.act .take).received) :
    let run := s.runWithin fuel fun _ => [.take]
    let shown := (s.act .take).computer.runShowingWithin fuel log frames
    run.1 = shown.1.ending ∧ run.2.computer = shown.1.computer ∧
      run.2.received = shown.2.toList := by
  induction fuel generalizing s log frames with
  | zero => exact ⟨rfl, rfl, hframes.symm⟩
  | succ fuel ih =>
      have htake : s.pause [.take] = s.act .take := rfl
      rw [runWithin, Computer.runShowingWithin]
      simp only [htake]
      cases (s.act .take).computer.running with
      | false => exact ⟨rfl, rfl, hframes.symm⟩
      | true =>
          cases (s.act .take).computer.cycleLimit? with
          | some fault => exact ⟨rfl, rfl, hframes.symm⟩
          | none =>
              have htaken : (frames ++ (s.act .take).step.computer.receive.1.toList).toList =
                  ((s.act .take).step.act .take).received := by
                simp [act, step, hframes]
              cases (s.act .take).computer.step.result with
              | error fault => exact ⟨rfl, rfl, htaken.symm⟩
              | ok => exact ih _ _ _ htaken

/-- With an idle display, this is the run of the machine alone. -/
theorem run_idle (s : Showing) :
    (s.run fun _ => []).2.computer = s.computer.run.computer :=
  s.runWithin_idle _ _

theorem run_taking (c : Computer) :
    let run := (Showing.start c.attachDisplay).run fun _ => [.take]
    let shown := c.attachDisplay.runShowing
    run.1 = shown.1.ending ∧ run.2.computer = shown.1.computer ∧
      run.2.received = shown.2.toList :=
  runWithin_taking _ _ _ #[] rfl

/-- A run that halts is over after steps that succeeded. -/
theorem runWithin_halted {fuel : Nat} (h : (s.runWithin fuel acts).1 = .halted) :
    ∃ n, s.computer.Proceeds n ∧ (s.runWithin fuel acts).2 = s.after acts n := by
  induction fuel generalizing s acts with
  | zero => exact absurd h nofun
  | succ fuel ih =>
      have hpause := s.sameOffDisplay_pause (acts 0)
      cases hrun : (s.pause (acts 0)).computer.running with
      | false =>
          rw [runWithin_stop fuel hrun]
          exact ⟨0, s.computer.proceeds_zero, rfl⟩
      | true =>
          cases hob : (s.pause (acts 0)).computer.obstacle? with
          | some o => exact absurd ((runWithin_stuck fuel hrun hob).symm.trans h) nofun
          | none =>
              rw [runWithin_free fuel hrun hob] at h ⊢
              obtain ⟨n, hproceeds, hleft⟩ := ih h
              exact ⟨n + 1, hpause.symm.proceeds (Computer.proceeds_succ hrun hob hproceeds),
                by rw [hleft, after_succ']⟩

end Showing

/-- A run that halts in front of a display that listens leaves a blit pending
exactly if a request waits that each step since has found the display busy with
the frame before; any other request of the run is settled. -/
theorem blits_of_halted_run (c : Computer) (acts : Nat → List DisplayAct)
    (hserving : DisplayLink.Serving c.link) (hidle : c.display.blitRequested = false)
    (hstays : ∀ k, .hangUp ∉ acts k) (hhalted : ((Showing.start c).run acts).1 = .halted) :
    let s := Showing.start c
    ∃ n, c.Proceeds n ∧ (s.run acts).2 = s.after acts n ∧
      ((s.run acts).2.computer.display.blitRequested = true ↔ ∃ j < n, s.Waits acts j n) ∧
      ∀ j < n, (s.after acts j).computer.Calls .blit → ¬ s.Waits acts j n →
        ∃ i, j ≤ i ∧ i < n ∧ s.Waits acts j i ∧ (s.after acts i).computer.Settles := by
  intro s
  obtain ⟨n, hproceeds, hleft⟩ := Showing.runWithin_halted hhalted
  refine ⟨n, hproceeds, hleft, ?_, fun j hj hcalls hgone => ?_⟩
  · rw [Showing.run, hleft]
    exact s.pending_after_iff hidle n
  · exact (Showing.waits_or_settles (s := s) hidle hserving hstays (Nat.le_of_lt hj)
      hcalls).resolve_left hgone

/-- Two requests that the display takes in time: the run halts, and none of them
waits at the end. -/
theorem blits_of_halted_run_blits_twice :
    DisplayLink.Serving blitsTwice.link ∧ blitsTwice.display.blitRequested = false ∧
    (∀ k, .hangUp ∉ takesLate k) ∧
    ((Showing.start blitsTwice).run takesLate).1 = .halted ∧
    ∃ n, blitsTwice.Proceeds n ∧ ¬ ∃ j < n, (Showing.start blitsTwice).Waits takesLate j n := by
  have hstays := hangUp_not_mem_takesLate
  obtain ⟨n, hproceeds, -, hpending, -⟩ :=
    blits_of_halted_run blitsTwice takesLate ⟨_, rfl, rfl⟩ rfl hstays rfl
  exact ⟨⟨_, rfl, rfl⟩, rfl, hstays, rfl, n, hproceeds, mt hpending.mpr nofun⟩

/-- A configuration with few cycles. -/
def eightCycles : Config where
  layout := ⟨64, 16, 12, 16⟩
  maxCycles := some 8
  files := .empty

set_option maxRecDepth 10000 in
/-- A program that blits twice and halts at once, before the display has taken
the first frame: the second is still pending then, and no step delivers it. -/
theorem blit_pending_at_halt :
    let c := (Computer.ofImage eightCycles
      [0x01, 0x03, 0x00, 0x00, 0x00, 0x10, 0x10, 0x0b]).attachDisplay
    let run := (Showing.start c).run fun _ => []
    DisplayLink.Serving c.link ∧ c.display.blitRequested = false ∧ run.1 = .halted ∧
      run.2.requests = 2 ∧ run.2.delivered.length = 1 ∧
      run.2.computer.display.blitRequested = true := by
  refine ⟨⟨_, rfl, rfl⟩, rfl, ?_⟩
  decide +kernel

end StackRisc
