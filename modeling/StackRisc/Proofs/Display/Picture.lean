import Mathlib.Data.Nat.Find
import StackRisc.Proofs.Display.Handoff
import StackRisc.Proofs.Display.Pixels

/-!
# StackRisc.Proofs.Display.Picture

What the frames show.  A frame is captured by the step that delivers it, not by
the one that requests it, so a request that waited for the display shows what
the program has drawn meanwhile:

* `Computer.picture_of_delivery` — a step delivers the picture that it leaves;
* `Showing.exists_lastBlit` — behind each frame there is a request that the last
  blit made;
* `delivered_pictures` — the frame shows the picture of that request exactly if
  the picture is still the same;
* `frame_shows_later_vram` — a program whose second frame shows what it drew
  after the second blit.
-/

namespace StackRisc

open StackRisc.Action

/-! ## Pictures -/

namespace Block

/-- Blocks start with the same bytes if they agree at each of them. -/
theorem take_eq_take_iff {b b' : Block} {n : Nat} (h : n ≤ b.size) (h' : n ≤ b'.size) :
    b.take n = b'.take n ↔ ∀ i < n, b.get? i = b'.get? i := by
  rw [take, take, Nat.min_eq_left h, Nat.min_eq_left h', List.map_inj_left]
  refine forall_congr' fun i => ?_
  rw [List.mem_range]
  refine imp_congr_right fun hi => ?_
  rw [get?, get?, if_pos (by omega), if_pos (by omega), Option.some.injEq]

end Block

namespace Computer

variable {c d : Computer} {frame : Frame}

/-- The frame of the display parameters and VRAM as they are. -/
def picture (c : Computer) : Except FrameError Frame := Frame.capture c.display c.vram

/-- The machines have the same display parameters and the same visible bytes
in VRAM. -/
structure SamePicture (c d : Computer) : Prop where
  mode : c.display.mode = d.display.mode
  width : c.display.width = d.display.width
  height : c.display.height = d.display.height
  pixels : ∀ i < Frame.neededBytes c.display, c.vram.get? i = d.vram.get? i

/-- Equal pictures need equally many bytes. -/
theorem SamePicture.neededBytes_eq (h : c.SamePicture d) :
    Frame.neededBytes c.display = Frame.neededBytes d.display := by
  rw [Frame.neededBytes, Frame.neededBytes, h.mode, h.width, h.height]

/-- Where one machine holds the bytes of a picture, so does the other. -/
theorem SamePicture.fits (h : c.SamePicture d) (hfits : d.Fits) : c.Fits := by
  have hneeded := h.neededBytes_eq
  unfold Fits at *
  refine Nat.le_of_not_lt fun hlt => ?_
  have hnone : c.vram.get? c.vram.size = none := if_neg (Nat.lt_irrefl _)
  have hsome : d.vram.get? c.vram.size = some (d.vram.cells.get c.vram.size) :=
    if_pos (by omega)
  rw [h.pixels _ hlt, hsome] at hnone
  contradiction

/-- Two machines show the same frame exactly if they have the same picture. -/
theorem picture_eq_iff (h : d.picture = .ok frame) :
    c.picture = .ok frame ↔ c.SamePicture d := by
  obtain ⟨hfits, hframe⟩ := Frame.capture_eq_ok_iff.mp h
  constructor
  · intro hc
    obtain ⟨hfits', hframe'⟩ := Frame.capture_eq_ok_iff.mp hc
    obtain ⟨hmode, hwidth, hheight, hpixels⟩ := Frame.mk.inj (hframe'.trans hframe.symm)
    have hneeded : Frame.neededBytes c.display = Frame.neededBytes d.display := by
      rw [Frame.neededBytes, Frame.neededBytes, hmode, hwidth, hheight]
    refine ⟨hmode, hwidth, hheight, ?_⟩
    rw [← Block.take_eq_take_iff hfits' (hneeded ▸ hfits)]
    rw [hneeded] at hpixels ⊢
    exact List.toArray_inj hpixels
  · intro hsame
    have hneeded := hsame.neededBytes_eq
    have hfits' : c.Fits := hsame.fits hfits
    have hpixels := (Block.take_eq_take_iff hfits' (hneeded ▸ hfits)).mpr hsame.pixels
    refine Frame.capture_eq_ok_iff.mpr ⟨hfits', ?_⟩
    rw [← hframe, hpixels, hneeded, hsame.mode, hsame.width, hsame.height]

/-- The picture does not depend on the link. -/
theorem SameOffDisplay.picture_eq (h : c.SameOffDisplay d) : c.picture = d.picture :=
  show c.offDisplay.picture = d.offDisplay.picture from congrArg picture h

/-- A frame that is presented is the picture of the machine. -/
theorem picture_of_presented (h : c.presented? = some frame) : c.picture = .ok frame := by
  unfold presented? at h
  split at h
  · cases hlink : c.link with
    | none => simp [hlink] at h
    | some l =>
        cases hcapture : Frame.capture c.display c.vram with
        | error e => simp [hlink, hcapture] at h
        | ok frame' =>
            cases hoffer : l.offer frame' with
            | busy | disconnected => simp [hlink, hcapture, hoffer] at h
            | delivered l' =>
                simp only [hlink, hcapture, hoffer, Option.some.injEq] at h
                rw [picture, hcapture, h]
  · contradiction

/-- A step delivers the picture that it leaves. -/
theorem picture_of_delivery (h : c.delivery? = some frame) :
    c.step.computer.picture = .ok frame := by
  rcases c.step_cases with ⟨i, flow, e, hattempt, -, hshown⟩ | ⟨fault, hattempt, -⟩
  · simp only [delivery?, hattempt.1, hattempt.2] at h
    rw [← hshown.picture_eq]
    exact picture_of_presented h
  · simp only [delivery?, hattempt.1] at h
    contradiction

end Computer

/-! ## Requests behind deliveries -/

/-- A frame is delivered only if one was asked for. -/
theorem HandsOver.asked {asked fits : Prop} {link link' : Option DisplayLink} {frame : Frame}
    {pending : Bool} (h : HandsOver asked link fits (some frame) link' pending) : asked := by
  cases h with
  | delivered hasked => exact hasked

/-- A step delivers a frame only if it is asked for. -/
theorem Computer.asked_of_delivery {c : Computer} {frame : Frame}
    (h : c.delivery? = some frame) : c.Asked := by
  cases hr : c.step.result with
  | error fault =>
      rw [(step_error_keeps hr).1] at h
      contradiction
  | ok =>
      have hhands := handsOver_step hr
      rw [h] at hhands
      exact hhands.asked

namespace Showing

variable {s : Showing} {acts : Nat → List DisplayAct} {j k : Nat}

/-- The last of the steps up to `k` that requests a blit is `j`. -/
def LastBlit (s : Showing) (acts : Nat → List DisplayAct) (j k : Nat) : Prop :=
  (s.after acts j).computer.Calls .blit ∧
    ∀ i ≤ k, j < i → ¬ (s.after acts i).computer.Calls .blit

instance (s : Showing) (acts : Nat → List DisplayAct) (j k : Nat) :
    Decidable (s.LastBlit acts j k) :=
  inferInstanceAs (Decidable (_ ∧ _))

/-- A request that is made while an earlier one waits waits as well. -/
theorem Waits.later {i : Nat} (h : s.Waits acts i k) (hij : i ≤ j)
    (hcalls : (s.after acts j).computer.Calls .blit) : s.Waits acts j k :=
  ⟨hcalls, fun m hjm hmk => h.2 m (Nat.le_trans hij hjm) hmk⟩

/-- A step that delivers a frame serves the last blit, which has waited for the
display since. -/
theorem exists_lastBlit {frame : Frame} (hidle : s.computer.display.blitRequested = false)
    (h : (s.after acts k).computer.delivery? = some frame) :
    ∃ j ≤ k, s.LastBlit acts j k ∧ s.Waits acts j k := by
  obtain ⟨i, hik, hwaits⟩ : ∃ i ≤ k, s.Waits acts i k := by
    rcases Computer.asked_of_delivery h with hpending | hcalls
    · obtain ⟨i, hik, hwaits⟩ := (pending_after_iff hidle k).mp hpending
      exact ⟨i, Nat.le_of_lt hik, hwaits⟩
    · exact ⟨k, Nat.le_refl k, waits_self.mpr hcalls⟩
  let calls (i : Nat) : Prop := (s.after acts i).computer.Calls .blit
  have hlast : calls (Nat.findGreatest calls k) := Nat.findGreatest_spec hik hwaits.1
  refine ⟨Nat.findGreatest calls k, Nat.findGreatest_le k, ⟨hlast, fun m hmk hm => ?_⟩,
    hwaits.later (Nat.le_findGreatest hik hwaits.1) hlast⟩
  exact Nat.findGreatest_is_greatest hm hmk

/-- A pause delivers nothing. -/
theorem delivered_pause (s : Showing) (acts : List DisplayAct) :
    (s.pause acts).delivered = s.delivered :=
  pause_induction (P := fun t => t.delivered = s.delivered) rfl fun t a _ h => by
    cases a <;> exact h

/-- The frames delivered are those that the steps deliver, in order. -/
theorem delivered_after (s : Showing) (acts : Nat → List DisplayAct) (n : Nat) :
    (s.after acts n).delivered =
      s.delivered ++ (List.range n).filterMap fun k => (s.after acts k).computer.delivery? := by
  induction n with
  | zero => rw [after, delivered_pause, List.range_zero, List.filterMap_nil, List.append_nil]
  | succ n ih =>
      rw [after, delivered_pause, step, ih, List.range_succ, List.filterMap_append,
        List.append_assoc]
      cases hdelivery : (s.after acts n).computer.delivery? <;> simp [hdelivery]

end Showing

/-- What the delivered frames show, however steps and takes interleave.  The
frames come from the steps that deliver them, in order.  Behind each frame there
is the last blit before its delivery, since which each step has found the
display busy.  The frame shows display parameters and VRAM as the delivering
step leaves them; that is the picture right after the blit exactly if neither
the parameters nor the visible bytes are different by then. -/
theorem delivered_pictures (c : Computer) (acts : Nat → List DisplayAct) (n : Nat)
    (hidle : c.display.blitRequested = false) :
    let s := Showing.start c
    let left (k : Nat) : Computer := (s.after acts k).computer.step.computer
    (s.after acts n).delivered =
        ((List.range n).filterMap fun k => (s.after acts k).computer.delivery?) ∧
      ∀ k < n, ∀ frame, (s.after acts k).computer.delivery? = some frame →
        ∃ j ≤ k, s.LastBlit acts j k ∧ s.Waits acts j k ∧ (left k).picture = .ok frame ∧
          ((left j).picture = .ok frame ↔ (left j).SamePicture (left k)) := by
  intro s left
  refine ⟨s.delivered_after acts n, fun k _ frame hframe => ?_⟩
  obtain ⟨j, hjk, hlast, hwaits⟩ := Showing.exists_lastBlit hidle hframe
  have hpicture := Computer.picture_of_delivery hframe
  exact ⟨j, hjk, hlast, hwaits, hpicture, Computer.picture_eq_iff hpicture⟩

/-- Two requests in a row: the second frame is delivered later, and is the
picture of that step. -/
theorem delivered_pictures_blits_twice :
    blitsTwice.display.blitRequested = false ∧
    let s := Showing.start blitsTwice
    (s.after takesLate 2).computer.delivery? = some ⟨.console, 0, 0, #[]⟩ ∧
      ∃ j ≤ 2, s.LastBlit takesLate j 2 ∧ s.Waits takesLate j 2 ∧
        (s.after takesLate 2).computer.step.computer.picture = .ok ⟨.console, 0, 0, #[]⟩ := by
  have hdelivery : ((Showing.start blitsTwice).after takesLate 2).computer.delivery? =
      some ⟨.console, 0, 0, #[]⟩ := by
    decide
  obtain ⟨-, hshown⟩ := delivered_pictures blitsTwice takesLate 3 rfl
  obtain ⟨j, hj, hlast, hwaits, hpicture, -⟩ := hshown 2 (by decide) _ hdelivery
  exact ⟨rfl, hdelivery, j, hj, hlast, hwaits, hpicture⟩

/-- A program that sets up one pixel, blits twice and then draws that pixel. -/
def drawsLate : List Instruction :=
  [.ldi 1, .push, .push, .push, .push, .ldi 7, .sys, .ldi 8, .sys, .ldi 9, .sys,
   .ldi 3, .sys, .sys, .ldi 64, .str, .hlt]

/-- A display that takes what is on its way before step 15. -/
def takesBeforeDrawing (k : Nat) : List DisplayAct := if k = 15 then [.take] else []

set_option maxRecDepth 10000 in
/-- A frame that does not show the picture of its request: the last blit before
its delivery is made by step 13, when the pixel is still black, and step 15,
which draws the pixel, is the first one that finds the display free. -/
theorem frame_shows_later_vram :
    let c := (Computer.ofImage { layout := ⟨64, 16, 12, 16⟩, files := .empty }
      (drawsLate.flatMap Instruction.encode)).attachDisplay
    let s := Showing.start c
    s.LastBlit takesBeforeDrawing 13 15 ∧
      (s.after takesBeforeDrawing 13).computer.step.computer.picture.toOption =
        some ⟨.blackAndWhite, 1, 1, #[0]⟩ ∧
      (s.after takesBeforeDrawing 15).computer.delivery? = some ⟨.blackAndWhite, 1, 1, #[1]⟩ := by
  decide +kernel

end StackRisc
