import StackRisc.Proofs.Display.Schedule

/-!
# StackRisc.Proofs.Display.Handoff

The hand-off of frames from the machine to the display.  `HandsOver` says all
that presenting can do to the buffer between them and to a pending request;
what a step does follows from it, and what a schedule does by induction.

* `Showing.Safe.after` — a display that listens takes the frames that were
  delivered, in order, and all but the one on its way;
* `Showing.pending_after_iff` — a blit is pending as long as each step since
  its request found the display busy;
* `handoff_safe` — both, from a machine with a new display.
-/

namespace StackRisc

open StackRisc.Action

/-! ## Presenting -/

namespace DisplayLink

/-- The frame on its way to the display that is attached. -/
def onItsWay (link : Option DisplayLink) : Option Frame := link.bind (·.buffer)

/-- A display that is attached listens. -/
def Listening (link : Option DisplayLink) : Prop := ∀ l, link = some l → l.connected = true

/-- The display that is attached listens and has not taken the last frame. -/
def Busy (link : Option DisplayLink) : Prop :=
  ∃ l, link = some l ∧ l.connected = true ∧ l.buffer.isSome

section

variable (l : DisplayLink) (frame : Frame)

/-- No frame is handed to a display that has hung up. -/
theorem offer_of_gone (h : l.connected = false) : l.offer frame = .disconnected := by
  simp [offer, h]

/-- An empty buffer takes the frame. -/
theorem offer_of_free (h : l.connected = true) (hbuffer : l.buffer = none) :
    l.offer frame = .delivered { l with buffer := some frame } := by
  simp [offer, h, hbuffer]

/-- A full buffer refuses it. -/
theorem offer_of_full {frame' : Frame} (h : l.connected = true)
    (hbuffer : l.buffer = some frame') : l.offer frame = .busy := by
  simp [offer, h, hbuffer]

end

end DisplayLink

/-- What presenting does to the hand-off: the frame that it delivers, and the
display and the pending request that it leaves. -/
inductive HandsOver (asked : Prop) (link : Option DisplayLink) (fits : Prop) :
    Option Frame → Option DisplayLink → Bool → Prop
  | idle (h : ¬ asked) : HandsOver asked link fits none link false
  | unattached (h : asked) (hlink : link = none) : HandsOver asked link fits none link false
  | dropped (h : asked) (hfits : ¬ fits) : HandsOver asked link fits none link false
  | disconnected {l : DisplayLink} (h : asked) (hlink : link = some l)
      (hgone : l.connected = false) : HandsOver asked link fits none none false
  | busy (h : asked) (hbusy : DisplayLink.Busy link) (hfits : fits) :
      HandsOver asked link fits none link true
  | delivered {l : DisplayLink} {frame : Frame} (h : asked) (hlink : link = some l)
      (hlistens : l.connected = true) (hfree : l.buffer = none) (hfits : fits) :
      HandsOver asked link fits (some frame) (some { l with buffer := some frame }) false

namespace HandsOver

variable {asked fits : Prop} {link link' : Option DisplayLink} {frame : Option Frame}
  {pending : Bool}

/-- A request is left pending exactly if it fits and the display is busy. -/
theorem pending_iff (h : HandsOver asked link fits frame link' pending) :
    pending = true ↔ asked ∧ DisplayLink.Busy link ∧ fits := by
  cases h with
  | idle h => simp [h]
  | unattached h hlink => simp [DisplayLink.Busy, hlink]
  | dropped h hfits => simp [hfits]
  | disconnected h hlink hgone => simp [DisplayLink.Busy, hlink, hgone]
  | busy h hbusy hfits => simp [h, hbusy, hfits]
  | delivered h hlink hlistens hfree hfits => simp [DisplayLink.Busy, hlink, hfree]

/-- Where no display is attached none will be, and no request stays. -/
theorem of_unattached (h : HandsOver asked none fits frame link' pending) :
    link' = none ∧ pending = false := by
  cases h with
  | idle | unattached | dropped => exact ⟨rfl, rfl⟩
  | disconnected _ hlink => cases hlink
  | busy _ hbusy =>
      obtain ⟨l, hlink, -⟩ := hbusy
      cases hlink
  | delivered _ hlink => cases hlink

/-- A display that listens goes on to, and the delivered frame comes after the
one on its way. -/
theorem of_listening (h : HandsOver asked link fits frame link' pending)
    (hlisten : DisplayLink.Listening link) :
    DisplayLink.Listening link' ∧
      (DisplayLink.onItsWay link').toList =
        (DisplayLink.onItsWay link).toList ++ frame.toList := by
  cases h with
  | idle | unattached | dropped | busy => exact ⟨hlisten, by simp⟩
  | disconnected _ hlink hgone => simp [hlisten _ hlink] at hgone
  | delivered _ hlink hlistens hfree =>
      constructor
      · rintro _ ⟨⟩
        exact hlistens
      · simp [DisplayLink.onItsWay, hlink, hfree]

/-- At most one frame is delivered for a request, and none for one that stays. -/
theorem delivered_le [Decidable asked] (h : HandsOver asked link fits frame link' pending) :
    frame.toList.length + pending.toNat ≤ if asked then 1 else 0 := by
  cases h with
  | idle | unattached | dropped | disconnected => simp
  | busy h | delivered h => simp [h]

end HandsOver

namespace Computer

variable {c d : Computer} {fault : Fault}

/-- VRAM holds a frame of the display parameters. -/
def Fits (c : Computer) : Prop := Frame.neededBytes c.display ≤ c.vram.size

/-- Whether a picture fits does not depend on the display. -/
theorem SameOffDisplay.fits_iff (h : c.SameOffDisplay d) : c.Fits ↔ d.Fits :=
  iff_of_eq (show c.offDisplay.Fits = d.offDisplay.Fits from congrArg Fits h)

/-- A picture that fits is captured. -/
theorem capture_of_fits (h : c.Fits) : ∃ frame, Frame.capture c.display c.vram = .ok frame :=
  ⟨_, if_pos h⟩

/-- One that does not fit is not. -/
theorem capture_of_not_fits (h : ¬ c.Fits) : ∃ e, Frame.capture c.display c.vram = .error e :=
  ⟨_, if_neg h⟩

/-- What presenting does to the hand-off. -/
theorem handsOver_present (c : Computer) :
    HandsOver (c.display.blitRequested = true) c.link c.Fits c.presented?
      (present.run c).computer.link (present.run c).computer.display.blitRequested := by
  unfold presented? Action.run present
  cases hasked : c.display.blitRequested with
  | false =>
      simp only [Bool.false_eq_true, if_false, hasked]
      exact .idle not_false
  | true =>
      simp only [if_true]
      cases hlink : c.link with
      | none =>
          simp only [clearBlit, hlink]
          exact .unattached trivial rfl
      | some l =>
          by_cases hfits : c.Fits
          · obtain ⟨frame, hframe⟩ := capture_of_fits hfits
            simp only [hframe]
            cases hlistens : l.connected with
            | false =>
                simp only [l.offer_of_gone frame hlistens, clearBlit]
                exact .disconnected trivial rfl hlistens
            | true =>
                cases hbuffer : l.buffer with
                | none =>
                    simp only [l.offer_of_free frame hlistens hbuffer, clearBlit]
                    exact .delivered trivial rfl hlistens hbuffer hfits
                | some frame' =>
                    simp only [l.offer_of_full frame hlistens hbuffer, hlink, hasked]
                    exact .busy trivial ⟨l, rfl, hlistens, by simp [hbuffer]⟩ hfits
          · obtain ⟨e, he⟩ := capture_of_not_fits hfits
            simp only [he, clearBlit, hlink]
            exact .dropped trivial hfits

/-! ## Steps -/

/-- A blit is to be presented after the instruction: it is pending, or the
instruction requests it. -/
def Asked (c : Computer) : Prop := c.display.blitRequested = true ∨ c.Calls .blit

instance (c : Computer) : Decidable c.Asked := inferInstanceAs (Decidable (_ ∨ _))

/-- The step finds the display busy with the last frame when it has one to
deliver. -/
def FindsBusy (c : Computer) : Prop := DisplayLink.Busy c.link ∧ c.step.computer.Fits

/-- A step presents what is asked for. -/
theorem handsOver_step (h : c.step.result = .ok ()) :
    HandsOver c.Asked c.link c.step.computer.Fits c.delivery? c.step.computer.link
      c.step.computer.display.blitRequested := by
  rcases ends_step.mp ⟨rfl, rfl⟩ with ⟨i, flow, e, hattempt, hpresent⟩ | ⟨fault, -, hfails⟩
  · have hasked : (e.counted i flow).display.blitRequested = true ↔ c.Asked :=
      (controlled_attempt hattempt).pending
    have hlink : (e.counted i flow).link = c.link := (surroundings_attempt hattempt).2.2
    have hdelivery : c.delivery? = (e.counted i flow).presented? := by
      simp only [delivery?, hattempt.1, hattempt.2]
    have hhands := (e.counted i flow).handsOver_present
    rwa [propext hasked, hlink, propext (ends_present hpresent).2.fits_iff, ← hdelivery,
      hpresent.2] at hhands
  · exact absurd (hfails.trans h) nofun

/-- A step that faults does not get to present. -/
theorem step_error_keeps (h : c.step.result = .error fault) :
    c.delivery? = none ∧ c.step.computer.link = c.link ∧ ¬ c.Calls .blit ∧
      c.step.computer.display.blitRequested = c.display.blitRequested := by
  rcases c.step_cases with ⟨_, _, _, -, hok, -⟩ | ⟨fault', hattempt, -⟩
  · exact absurd (hok.symm.trans h) nofun
  · have hcalls : ¬ c.Calls .blit := fun hcalls =>
      absurd ((step_ok_of_calls hcalls nofun).symm.trans h) nofun
    refine ⟨by simp only [delivery?, hattempt.1], (surroundings_attempt hattempt).2.2, hcalls, ?_⟩
    rw [Bool.eq_iff_iff, (controlled_attempt hattempt).pending, or_iff_left hcalls]

/-- A blit is pending after a step that was asked for one and found the display
busy. -/
theorem pending_step_ok_iff (h : c.step.result = .ok ()) :
    c.step.computer.display.blitRequested = true ↔ c.Asked ∧ c.FindsBusy :=
  (handsOver_step h).pending_iff

/-- A display that listens gets the frames that steps deliver. -/
theorem onItsWay_step (h : DisplayLink.Listening c.link) :
    DisplayLink.Listening c.step.computer.link ∧
      (DisplayLink.onItsWay c.step.computer.link).toList =
        (DisplayLink.onItsWay c.link).toList ++ c.delivery?.toList := by
  cases hr : c.step.result with
  | ok => exact (handsOver_step hr).of_listening h
  | error fault =>
      obtain ⟨hnone, hlink, -, -⟩ := step_error_keeps hr
      rw [hnone, hlink]
      exact ⟨h, (List.append_nil _).symm⟩

/-- For each frame that is delivered a request is gone. -/
theorem delivery_step_le (c : Computer) :
    c.delivery?.toList.length + c.step.computer.display.blitRequested.toNat ≤
      c.display.blitRequested.toNat + if c.Calls .blit then 1 else 0 := by
  cases hr : c.step.result with
  | ok =>
      refine Nat.le_trans (handsOver_step hr).delivered_le ?_
      by_cases hpending : c.display.blitRequested = true
      · simp [Asked, hpending]
      · simp [Asked, hpending]
  | error fault =>
      obtain ⟨hnone, -, -, hpending⟩ := step_error_keeps hr
      simp [hnone, hpending]

end Computer

namespace Showing

variable {s : Showing} {acts : Nat → List DisplayAct} {j n : Nat}

/-! ## Histories -/

/-- The display takes the frames that the machine delivers: none is lost, none
comes twice, and none was not requested. -/
structure Safe (s : Showing) : Prop where
  listening : DisplayLink.Listening s.computer.link
  inOrder : s.received ++ (DisplayLink.onItsWay s.computer.link).toList = s.delivered
  requested : s.delivered.length + s.computer.display.blitRequested.toNat ≤ s.requests

/-- Taking a frame keeps the hand-off safe. -/
theorem Safe.take (h : s.Safe) : (s.act .take).Safe := by
  have hkept := h.inOrder
  cases hlink : s.computer.link with
  | none =>
      have hreceive : s.computer.receive = (none, s.computer) := by
        simp only [Computer.receive, hlink]
      refine ⟨?_, ?_, ?_⟩ <;> simp only [act, hreceive]
      · exact h.listening
      · simpa using hkept
      · exact h.requested
  | some l =>
      have hreceive : s.computer.receive =
          (l.buffer, { s.computer with link := some { l with buffer := none } }) := by
        simp only [Computer.receive, hlink, DisplayLink.receive]
      rw [hlink] at hkept
      refine ⟨?_, ?_, ?_⟩ <;> simp only [act, hreceive]
      · rintro _ ⟨⟩
        exact h.listening l hlink
      · simpa [DisplayLink.onItsWay] using hkept
      · exact h.requested

/-- So does a step. -/
theorem Safe.step (h : s.Safe) : s.step.Safe where
  listening := (Computer.onItsWay_step h.listening).1
  inOrder := by
    rw [Showing.step, (Computer.onItsWay_step h.listening).2, ← h.inOrder, List.append_assoc]
  requested := by
    have hbefore := h.requested
    have hstep := s.computer.delivery_step_le
    simp only [Showing.step, List.length_append]
    omega

/-- So does a pause in which the display does not hang up. -/
theorem Safe.pause {acts : List DisplayAct} (h : s.Safe) (hstays : .hangUp ∉ acts) :
    (s.pause acts).Safe :=
  pause_induction h fun _ a ha hs => by
    cases a with
    | take => exact hs.take
    | hangUp => contradiction

/-- Whatever a display does that listens, it takes the frames that the machine
delivers. -/
theorem Safe.after (h : s.Safe) (hstays : ∀ k, .hangUp ∉ acts k) (n : Nat) :
    (s.after acts n).Safe := by
  induction n with
  | zero => exact h.pause (hstays 0)
  | succ n ih => exact ih.step.pause (hstays (n + 1))

/-! ## Requests -/

/-- The request for a blit that the machine makes after `j` steps still waits
after `n`: each step since that did not fault has found the display busy. -/
def Waits (s : Showing) (acts : Nat → List DisplayAct) (j n : Nat) : Prop :=
  (s.after acts j).computer.Calls .blit ∧
    ∀ i, j ≤ i → i < n → (s.after acts i).computer.step.result = .ok () →
      (s.after acts i).computer.FindsBusy

/-- A request waits from the step that makes it. -/
theorem waits_self : s.Waits acts n n ↔ (s.after acts n).computer.Calls .blit :=
  and_iff_left fun _ hle hlt => absurd hlt (Nat.not_lt_of_le hle)

/-- It waits on as long as every step finds the display busy. -/
theorem waits_succ (hj : j ≤ n) :
    s.Waits acts j (n + 1) ↔ s.Waits acts j n ∧
      ((s.after acts n).computer.step.result = .ok () →
        (s.after acts n).computer.FindsBusy) := by
  constructor
  · rintro ⟨hcalls, hbusy⟩
    exact ⟨⟨hcalls, fun i hji hin => hbusy i hji (Nat.lt_succ_of_lt hin)⟩,
      hbusy n hj (Nat.lt_succ_self n)⟩
  · rintro ⟨⟨hcalls, hbusy⟩, hlast⟩
    refine ⟨hcalls, fun i hji hin => ?_⟩
    rcases Nat.lt_succ_iff_lt_or_eq.mp hin with hin | rfl
    · exact hbusy i hji hin
    · exact hlast

/-- The requests that wait after a step waited before or are made by it, and
the step found the display busy. -/
theorem exists_waits_succ :
    (∃ j < n + 1, s.Waits acts j (n + 1)) ↔
      ((s.after acts n).computer.Calls .blit ∨ ∃ j < n, s.Waits acts j n) ∧
        ((s.after acts n).computer.step.result = .ok () →
          (s.after acts n).computer.FindsBusy) := by
  constructor
  · rintro ⟨j, hj, hwaits⟩
    obtain ⟨hbefore, hlast⟩ := (waits_succ (Nat.le_of_lt_succ hj)).mp hwaits
    refine ⟨?_, hlast⟩
    rcases Nat.lt_succ_iff_lt_or_eq.mp hj with hj | rfl
    · exact .inr ⟨j, hj, hbefore⟩
    · exact .inl (waits_self.mp hbefore)
  · rintro ⟨hcalls | ⟨j, hj, hbefore⟩, hlast⟩
    · exact ⟨n, Nat.lt_succ_self n, (waits_succ (Nat.le_refl n)).mpr ⟨waits_self.mpr hcalls, hlast⟩⟩
    · exact ⟨j, Nat.lt_succ_of_lt hj, (waits_succ (Nat.le_of_lt hj)).mpr ⟨hbefore, hlast⟩⟩

/-- A pause leaves the request. -/
theorem pending_pause (s : Showing) (acts : List DisplayAct) :
    (s.pause acts).computer.display.blitRequested = s.computer.display.blitRequested :=
  pause_induction
    (P := fun t => t.computer.display.blitRequested = s.computer.display.blitRequested) rfl
    fun t a _ h => by
      cases a with
      | hangUp => exact h
      | take =>
          rw [← h, act, Computer.receive]
          cases t.computer.link <;> rfl

/-- A blit is pending if a request waits for the display. -/
theorem pending_after_iff (hidle : s.computer.display.blitRequested = false) (n : Nat) :
    (s.after acts n).computer.display.blitRequested = true ↔ ∃ j < n, s.Waits acts j n := by
  induction n with
  | zero => simp [after, pending_pause, hidle]
  | succ n ih =>
      rw [exists_waits_succ, after, pending_pause, ← ih]
      cases hr : (s.after acts n).computer.step.result with
      | ok =>
          rw [step, Computer.pending_step_ok_iff hr, Computer.Asked, or_comm]
          simp
      | error fault =>
          obtain ⟨-, -, hcalls, hpending⟩ := Computer.step_error_keeps hr
          simp [step, hcalls, hpending]

end Showing

/-- The hand-off of frames to a display that is new and keeps listening is safe,
however steps and takes interleave.  The frames it has taken, with the one on
its way, are those that were delivered; at most one is on its way, and none was
not requested.  After a step that succeeds a blit is pending exactly if it, or
an earlier one whose request still waits, requested it, and the step found a
display that had not taken the last frame. -/
theorem handoff_safe (c : Computer) (acts : Nat → List DisplayAct) (n : Nat)
    (hnew : ∀ l, c.link = some l → l = {}) (hidle : c.display.blitRequested = false)
    (hstays : ∀ k, .hangUp ∉ acts k) :
    let s := (Showing.start c).after acts n
    s.received ++ (DisplayLink.onItsWay s.computer.link).toList = s.delivered ∧
      s.delivered.length ≤ s.received.length + 1 ∧ s.delivered.length ≤ s.requests ∧
      (s.computer.step.result = .ok () →
        (s.computer.step.computer.display.blitRequested = true ↔
          (s.computer.Calls .blit ∨ ∃ j < n, (Showing.start c).Waits acts j n) ∧
            s.computer.FindsBusy)) := by
  intro s
  have hstart : (Showing.start c).Safe :=
    { listening := fun l hl => by rw [hnew l hl]
      inOrder := by
        cases hlink : c.link with
        | none => simp [Showing.start, DisplayLink.onItsWay, hlink]
        | some l => simp [Showing.start, DisplayLink.onItsWay, hlink, hnew l hlink]
      requested := by simp [Showing.start, hidle] }
  have hsafe : s.Safe := hstart.after hstays n
  refine ⟨hsafe.inOrder, ?_, Nat.le_trans (Nat.le_add_right _ _) hsafe.requested, fun hok => ?_⟩
  · rw [← hsafe.inOrder, List.length_append]
    exact Nat.add_le_add_left Option.length_toList_le _
  · rw [Computer.pending_step_ok_iff hok, Computer.Asked,
      Showing.pending_after_iff (s := .start c) hidle n, or_comm]

/-- A machine that blits twice and halts. -/
def blitsTwice : Computer where
  cpu := { registers := { narrow := 3, pc := 0 } }
  memory := ⟨[.rom [0x10, 0x10, 0x0b]]⟩
  maxCycles := some 3
  files := .empty
  link := some {}

/-- A display that takes what is on its way before the third step. -/
def takesLate (k : Nat) : List DisplayAct := if k = 2 then [.take] else []

theorem hangUp_not_mem_takesLate (k : Nat) : .hangUp ∉ takesLate k := by
  unfold takesLate
  split <;> decide

/-- Two requests in a row, with a display that takes frames late: the first one
is delivered, and the second one finds it busy. -/
theorem handoff_safe_blits_twice :
    (∀ l, blitsTwice.link = some l → l = {}) ∧ blitsTwice.display.blitRequested = false ∧
    (∀ k, .hangUp ∉ takesLate k) ∧
    let s := (Showing.start blitsTwice).after takesLate 1
    s.delivered.length = 1 ∧ s.received = [] ∧ s.requests = 1 ∧
      s.computer.step.result = .ok () ∧
      s.computer.step.computer.display.blitRequested = true ∧ s.computer.FindsBusy := by
  have hnew : ∀ l, blitsTwice.link = some l → l = {} := by
    rintro _ ⟨⟩
    rfl
  have hstays := hangUp_not_mem_takesLate
  obtain ⟨-, -, -, hpending⟩ := handoff_safe blitsTwice takesLate 1 hnew rfl hstays
  exact ⟨hnew, rfl, hstays, rfl, rfl, rfl, rfl, rfl, ((hpending rfl).mp rfl).2⟩

end StackRisc
