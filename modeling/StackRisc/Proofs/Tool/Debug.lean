import StackRisc.Proofs.Debugger.Session
import StackRisc.Proofs.Tool.World
import StackRisc.Tool.Debug

/-!
# StackRisc.Proofs.Tool.Debug

The debugger of the tool, on a host that is a value.  Unless frames are
written to files, it returns the machine of a session that heard the complete
lines of its input (`debug_computer`).
-/

namespace StackRisc.Tool

open Debugger World

variable {d : Dialogue} {w w' : World}

/-- The complete lines of an input, when some text is already held. -/
def completeLines (held : String) : List String → List String
  | [] => []
  | line :: rest =>
    match addLine held line with
    | .unfinished text => completeLines text rest
    | .complete line => line :: completeLines "" rest

/-! ## Dialogues -/

/-- Frames are written nowhere, and a program reads the files that the host
has for it. -/
structure Dialogue.Steady (d : Dialogue) (w : World) : Prop where
  sink : d.sink.directory = none
  files {path : String} (h : d.dataDirectory = some path) :
    d.session.computer.files = .rooted path w.disk.read

/-- A sink without a directory counts its frames and writes nothing. -/
theorem gives_accept {sink : FrameSink} (h : sink.directory = none) (f : Frame) (w : World) :
    Gives (sink.accept f) w { sink with count := sink.count + 1 }
      { w with log := w.log.push (FrameSink.event sink.count f) } := by
  obtain ⟨directory, count⟩ := sink
  subst h
  rfl

/-- Showing a frame leaves the session as it is. -/
theorem gives_showFrame (hd : d.Steady w) (f : Frame) :
    ∃ d' w', Gives (d.showFrame f) w d' w' ∧ d'.session = d.session ∧ d'.held = d.held ∧
      d'.Steady w' := by
  have haccept := gives_accept hd.sink f w
  refine ⟨{ d with sink := { d.sink with count := d.sink.count + 1 } },
    { w with log := w.log.push (FrameSink.event d.sink.count f) }, haccept.bind ?_, rfl,
    rfl, hd.sink, fun h => hd.files h⟩
  cases hdirectory : d.dataDirectory with
  | none => rfl
  | some path =>
      -- The program reads the files that the host has already.
      have hfiles : d.session.computer.withFiles (.rooted path w.disk.read) = d.session.computer := by
        rw [Computer.withFiles, ← hd.files hdirectory]
      have hlookup : Gives (ExceptT.lift (Host.programFiles path))
          { w with log := w.log.push (FrameSink.event d.sink.count f) }
          (.rooted path w.disk.read)
          { w with log := w.log.push (FrameSink.event d.sink.count f) } := rfl
      refine hlookup.bind ?_
      rw [hfiles]
      rfl

/-- A dialogue takes over the session of a turn. -/
theorem gives_take (hd : d.Steady w) {t : Turn}
    (hfiles : t.session.computer.files = d.session.computer.files) :
    ∃ d' w', Gives (d.take t) w d' w' ∧ d'.session = t.session ∧ d'.held = "" ∧
      d'.Steady w' := by
  obtain ⟨w₁, hreports, hdisk⟩ := gives_reports t.log.toList w
  have hd₁ : { d with session := t.session, held := "" }.Steady w₁ := by
    refine ⟨hd.sink, fun h => ?_⟩
    rw [hdisk, ← hd.files h]
    exact hfiles
  cases hframe : t.frame with
  | none =>
      refine ⟨_, _, hreports.bind ?_, rfl, rfl, hd₁⟩
      rw [hframe]
      rfl
  | some f =>
      obtain ⟨d', w', hshown, hsession, hheld, hd'⟩ := gives_showFrame hd₁ f
      refine ⟨d', w', hreports.bind ?_, hsession, hheld, hd'⟩
      rw [hframe]
      exact hshown

/-- A turn ends the dialogue or leaves its session there. -/
theorem turn_eq (hd : d.Steady w) {t : Turn}
    (hfiles : t.session.computer.files = d.session.computer.files) :
    ∃ d' w', (d.turn t : Act _) w =
        (if t.ended then .inr (.ok t.session.computer) else .inl d', w') ∧
      d'.session = t.session ∧ d'.held = "" ∧ d'.Steady w' := by
  obtain ⟨d', w', htake, hsession, hheld, hd'⟩ := gives_take hd hfiles
  refine ⟨d', w', ?_, hsession, hheld, hd'⟩
  rw [Dialogue.turn, ← hsession]
  exact bind_eq htake _

/-- An open quote holds the line back. -/
theorem hear_unfinished {line text : String} (h : addLine d.held line = .unfinished text)
    (w : World) : (d.hear line : Act _) w = (.inl { d with held := text }, w) := by
  rw [Dialogue.hear, h]
  rfl

/-- A complete line is a turn of the session. -/
theorem hear_complete {line text : String} (h : addLine d.held line = .complete text) :
    (d.hear line : Act _) = d.turn (d.session.hear Command.ofLine text) := by
  rw [Dialogue.hear, h]

/-- Hearing the rest of an input: the dialogue ends with the session that heard
its complete lines. -/
theorem foldLinesOf_hear (lines : List String) (hd : d.Steady w) {c : Computer}
    (hfollows : d.session.Follows c) :
    ∃ w', (∃ d', foldLinesOf Dialogue.hear lines d w = (.inl d', w') ∧
        d'.session = hearAll Command.ofLine d.session (completeLines d.held lines)) ∨
      foldLinesOf Dialogue.hear lines d w =
        (.inr (.ok (hearAll Command.ofLine d.session (completeLines d.held lines)).computer), w') := by
  induction lines generalizing d w with
  | nil => exact ⟨_, .inl ⟨d, rfl, rfl⟩⟩
  | cons line rest ih =>
      have hd₁ : d.Steady { w with input := rest } := ⟨hd.sink, hd.files⟩
      rw [foldLinesOf, completeLines]
      cases hline : addLine d.held line with
      | unfinished text =>
          have hd₂ : { d with held := text }.Steady { w with input := rest } := ⟨hd.sink, hd.files⟩
          simp only [hear_unfinished hline]
          exact ih hd₂ hfollows
      | complete text =>
          have hnext := (d.session.moves_hear Command.ofLine text).follows hfollows
          have hfiles := hnext.files_eq.trans hfollows.files_eq.symm
          obtain ⟨d', w', hturn, hsession, hheld, hd'⟩ := turn_eq hd₁ hfiles
          simp only [hear_complete hline, hturn, hearAll]
          cases hended : (d.session.hear Command.ofLine text).ended with
          | true => exact ⟨w', .inr rfl⟩
          | false =>
              rw [← hsession] at hnext ⊢
              rw [← hheld]
              exact ih hd' hnext

/-- The debugger returns the machine of the session that heard the complete
lines of the input. -/
theorem debug_computer (hd : d.Steady w) {c : Computer} (hfollows : d.session.Follows c) :
    ∃ w', Gives (debug d) w
      (hearAll Command.ofLine d.session (completeLines d.held w.input)).computer w' := by
  have hd₁ : d.Steady { w with log := w.log.push Session.greeting } := ⟨hd.sink, hd.files⟩
  have hgreeted := gives_report Session.greeting w
  obtain ⟨w', ⟨d', hfold, hsession⟩ | hfold⟩ := foldLinesOf_hear w.input hd₁ hfollows
  · refine ⟨{ w' with log := w'.log.push Session.farewell }, ?_⟩
    have hfarewell := gives_report Session.farewell w'
    rw [← hsession]
    refine hgreeted.bind ((gives_foldLines hfold).bind ?_)
    exact hfarewell.bind (gives_pure d'.session.computer _)
  · refine ⟨w', hgreeted.bind ((gives_foldLines hfold).bind ?_)⟩
    exact gives_pure _ w'

end StackRisc.Tool
