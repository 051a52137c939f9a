import StackRisc.Proofs.Tool.Refusal
import StackRisc.Tool.Assemble

/-!
# StackRisc.Proofs.Tool.Assemble

Writing an image and its symbols, on a host that may refuse each request.  When
it succeeds, both files are there, unless both paths lead to the same file: then
the symbols take the place of the image (`writeAssembly_same_path`).  When the
symbols cannot be written, no image is left.
-/

namespace StackRisc.Tool

open World

variable {path : String} {contents : List Byte}

/-! ## Writing both files -/

/-- Withdrawing an image asks the host to remove it, and reports a refusal. -/
theorem run_withdraw (output : String) (r : Refusals) (w : World) :
    ∃ w', (withdraw output : Refusing Act Unit) r w = (((), r.later), w') ∧
      w'.disk = (w.disk.removeUnless (r 0) output).1 := by
  have hremove := run_remove output r w
  rw [withdraw, Refusing.bind_eq hremove]
  cases (w.disk.removeUnless (r 0) output).2 with
  | ok => exact ⟨_, rfl, rfl⟩
  | error e => exact ⟨_, rfl, rfl⟩

/-- What writing an assembly answers and leaves, request by request. -/
theorem outcome_writeAssembly (a : Assembly) (output symbolsPath : String) (r : Refusals)
    (w : World) :
    outcome (writeAssembly a output symbolsPath) r w =
      match w.disk.writeUnless (r 0) output a.image with
      | (d, .error e) => (.error (.write output e), d)
      | (d, .ok ()) =>
        match d.writeUnless (r 1) symbolsPath (textBytes a.symbols.toJson) with
        | (d, .ok ()) => (.ok (), d)
        | (d, .error e) => (.error (.write symbolsPath e), (d.removeUnless (r 2) output).1) := by
  have himage := run_request (run_write output a.image r w) (.write output)
  rcases hfirst : w.disk.writeUnless (r 0) output a.image with ⟨d, e | _⟩
  · rw [hfirst] at himage
    exact outcome_bind_error himage _
  · rw [hfirst] at himage
    rw [writeAssembly, outcome_bind_ok himage, outcome_bind_ok (run_report _ _ _)]
    generalize hw : ({ w with disk := d, log := _ } : World) = w₁
    have hdisk : w₁.disk = d := by rw [← hw]
    have hsymbols := run_write symbolsPath (textBytes a.symbols.toJson) r.later w₁
    rw [hdisk, show r.later 0 = r 1 from rfl] at hsymbols
    rw [outcome_bind_ok (run_lift hsymbols)]
    dsimp only
    rcases d.writeUnless (r 1) symbolsPath (textBytes a.symbols.toJson) with ⟨d', e | _⟩
    · obtain ⟨w₂, hwithdraw, hremoved⟩ := run_withdraw output r.later.later { w₁ with disk := d' }
      show outcome (ExceptT.lift (withdraw output) >>= fun _ => throw (.write symbolsPath e)) _ _ = _
      rw [outcome_bind_ok (run_lift hwithdraw)]
      exact congrArg (Prod.mk _) hremoved
    · rfl

/-- Two files that were written, one after the other. -/
theorem read_of_writes {d d₁ d₂ : Disk} {other : String} {written : List Byte}
    (hfirst : d.write path contents = .ok d₁) (hsecond : d₁.write other written = .ok d₂) :
    d₂.read other = .ok written ∧
      d₂.read path = .ok (if d₂.file? path = d₂.file? other then written else contents) :=
  ⟨Disk.read_of_write hsecond, Disk.read_of_write_other (Disk.read_of_write hfirst) hsecond⟩

/-- An image and its symbols are different files, unless a path of them is a
link or a file has another name. -/
theorem file?_pathFor_ne {d d₁ d₂ : Disk} {output : String} {written : List Byte}
    (hfirst : d.write output contents = .ok d₁)
    (hsecond : d₁.write (Symbols.pathFor output) written = .ok d₂) (himage : d.Single output)
    (hsymbols : d.Single (Symbols.pathFor output)) :
    d₂.file? output ≠ d₂.file? (Symbols.pathFor output) := by
  have hslash : '/' ∉ "_dbg".toList := by simp
  have hname : ∃ c ∈ "_dbg".toList, c ≠ '.' := ⟨'_', by simp, by decide⟩
  have hkeep {path : String} (hpath : path ≠ "") (hsingle : d.Single path) : d₂.Single path :=
    Disk.single_of_write hsecond hpath (Disk.single_of_write hfirst hpath hsingle)
  obtain ⟨n, hfile, -⟩ := Disk.read_eq_ok_iff.mp (read_of_writes hfirst hsecond).2
  intro heq
  exact Disk.file?_append_ne hslash hname (hkeep (Disk.ne_empty_of_write hfirst) himage)
    (hkeep (Disk.ne_empty_of_write hsecond) hsymbols) hfile (heq ▸ hfile)

/-- A file that was written can be removed, whatever became of another one. -/
theorem contains_of_withdrawn {d d₁ d₂ : Disk} {refusal : Option Refusal} {other : String}
    {written : List Byte} {answer : Except HostError Unit}
    (hfirst : d.write path contents = .ok d₁)
    (hsecond : d₁.writeUnless refusal other written = (d₂, answer)) :
    (d₂.removeUnless none path).1.contains path = false := by
  obtain ⟨_, hread⟩ := Disk.exists_read_of_writeUnless (Disk.read_of_write hfirst) refusal
  rw [hsecond] at hread
  obtain ⟨d₃, hremove⟩ := Disk.exists_remove (Disk.exists_wrote hfirst).1 hread
  rw [Disk.removeUnless_eq_ok_iff.mpr ⟨rfl, hremove⟩]
  exact Disk.contains_of_remove hremove

/-- Writing an assembly succeeds when both files were written.  The symbols can
then be read at their path, and the image at its own unless both paths lead to
the same file.  The default path for the symbols leads to another one, if
neither path is a link and no file there has a second name.  When the symbols
cannot be written, the answer says so, and there is nothing left where the image
was, unless its removal is refused as well. -/
theorem writeAssembly_both_or_no_image (a : Assembly) (output symbolsPath : String)
    (r : Refusals) (w : World) :
    let json := textBytes a.symbols.toJson
    let first := w.disk.writeUnless (r 0) output a.image
    let second := first.1.writeUnless (r 1) symbolsPath json
    let result := (outcome (writeAssembly a output symbolsPath) r w).1
    let disk := (outcome (writeAssembly a output symbolsPath) r w).2
    (result = .ok () ↔ first.2 = .ok () ∧ second.2 = .ok ()) ∧
    (result = .ok () →
      disk.read symbolsPath = .ok json ∧
      disk.read output =
        .ok (if disk.file? output = disk.file? symbolsPath then json else a.image) ∧
      (w.disk.Single output → w.disk.Single symbolsPath → symbolsPath = Symbols.pathFor output →
        disk.read output = .ok a.image)) ∧
    (∀ e, first.2 = .error e → result = .error (.write output e)) ∧
    (∀ e, first.2 = .ok () → second.2 = .error e →
      result = .error (.write symbolsPath e) ∧ (r 2 = none → disk.contains output = false)) := by
  intro json first second result disk
  have hfirst : w.disk.writeUnless (r 0) output a.image = first := rfl
  have hsecond : first.1.writeUnless (r 1) symbolsPath (textBytes a.symbols.toJson) = second := rfl
  have houtcome : outcome (writeAssembly a output symbolsPath) r w = (result, disk) := rfl
  clear_value result disk second first
  rw [outcome_writeAssembly, hfirst] at houtcome
  rcases first with ⟨d₁, e | _⟩
  · obtain ⟨rfl, rfl⟩ := Prod.mk.inj houtcome
    simp
  · obtain ⟨-, hwrite⟩ := Disk.writeUnless_eq_ok_iff.mp hfirst
    dsimp only at hsecond houtcome
    rw [hsecond] at houtcome
    rcases second with ⟨d₂, e | _⟩
    · obtain ⟨rfl, rfl⟩ := Prod.mk.inj houtcome
      have hnone : r 2 = none → (d₂.removeUnless (r 2) output).1.contains output = false := by
        intro hremoval
        rw [hremoval]
        exact contains_of_withdrawn hwrite hsecond
      simpa using hnone
    · obtain ⟨-, hwrite₂⟩ := Disk.writeUnless_eq_ok_iff.mp hsecond
      obtain ⟨rfl, rfl⟩ := Prod.mk.inj houtcome
      obtain ⟨hsymbols, himage⟩ := read_of_writes hwrite hwrite₂
      refine ⟨by simp, fun _ => ⟨hsymbols, himage, ?_⟩, by simp, by simp⟩
      rintro houtput hsingle rfl
      rw [himage, if_neg (file?_pathFor_ne hwrite hwrite₂ houtput hsingle)]

/-- A program that does nothing but stop. -/
def haltOnly : Assembly where
  image := 11 :: List.replicate 4095 0
  symbols := {}

/-- Both files are there, and no image is left when there was no space for the
symbols. -/
theorem writeAssembly_both_or_no_image_halt :
    let written := outcome (writeAssembly haltOnly "out.bin" "out.bin_dbg") (fun _ => none) {}
    let full : Refusal := ⟨.other "No space left on device (os error 28)", some 3⟩
    let refused := outcome (writeAssembly haltOnly "out.bin" "out.bin_dbg")
      (fun n => if n = 1 then some full else none) {}
    written.1 = .ok () ∧ written.2.read "out.bin" = .ok haltOnly.image ∧
      refused.1 = .error (.write "out.bin_dbg" full.cause) ∧
      refused.2.contains "out.bin" = false := by
  intro written full refused
  -- on an empty disk nothing but directories is found
  have hsingle (path : String) : ({} : Disk).Single path := by
    have hentry (names : List String) {entry : Entry} (h : entry ≠ .directory) :
        ({} : Disk).find? names ≠ some entry := by
      rw [Disk.find?]
      split
      · simpa using h.symm
      · simp
    exact fun names _ => ⟨fun _ => hentry names (by simp),
      fun _ _ hfile => absurd hfile (hentry names (by simp))⟩
  obtain ⟨hok, hread, -⟩ :=
    writeAssembly_both_or_no_image haltOnly "out.bin" "out.bin_dbg" (fun _ => none) {}
  obtain ⟨-, -, -, hrefused⟩ :=
    writeAssembly_both_or_no_image haltOnly "out.bin" "out.bin_dbg"
      (fun n => if n = 1 then some full else none) {}
  have hwritten := hok.mpr ⟨by decide +kernel, by decide +kernel⟩
  obtain ⟨herror, hnone⟩ := hrefused full.cause (by decide +kernel) (by decide +kernel)
  exact ⟨hwritten, (hread hwritten).2.2 (hsingle _) (hsingle _) (by decide), herror, hnone rfl⟩

/-- Two files that are written without a refusal. -/
theorem outcome_of_writes {a : Assembly} {output symbolsPath : String} {w : World} {d₁ d₂ : Disk}
    (hfirst : w.disk.write output a.image = .ok d₁)
    (hsecond : d₁.write symbolsPath (textBytes a.symbols.toJson) = .ok d₂) :
    outcome (writeAssembly a output symbolsPath) (fun _ => none) w = (.ok (), d₂) := by
  rw [outcome_writeAssembly, Disk.writeUnless_eq_ok_iff.mpr ⟨rfl, hfirst⟩]
  dsimp only
  rw [Disk.writeUnless_eq_ok_iff.mpr ⟨rfl, hsecond⟩]

/-- The default path for the symbols is a symbolic link to the image. -/
def linkedSymbols : Disk where
  tree := [(["work", "out.bin_dbg"], .link "out.bin")]

/-- The default path for the symbols is a second name of the image. -/
def sharedSymbols : Disk where
  tree := [(["work", "out.bin"], .file 0), (["work", "out.bin_dbg"], .file 0)]

/-- Writing the image to `out.bin` and the symbols elsewhere succeeds, and
`out.bin` holds the symbols instead of the image. -/
def Overwrites (d : Disk) (symbolsPath : String) : Prop :=
  let run := outcome (writeAssembly haltOnly "out.bin" symbolsPath) (fun _ => none) { disk := d }
  run.1 = .ok () ∧ run.2.read "out.bin" = .ok (textBytes haltOnly.symbols.toJson) ∧
    run.2.read "out.bin" ≠ .ok haltOnly.image

/-- When both writes succeed and both paths then lead to one file, the image is
lost. -/
theorem overwrites_of_file?_eq {d : Disk} {symbolsPath : String}
    (h : (d.write "out.bin" haltOnly.image >>=
        (·.write symbolsPath (textBytes haltOnly.symbols.toJson))).map
      (fun d => decide (d.file? "out.bin" = d.file? symbolsPath)) = .ok true) :
    Overwrites d symbolsPath := by
  have hbrace : (textBytes haltOnly.symbols.toJson).head? = some 123 := by decide +kernel
  obtain ⟨d₂, hwrites, hfile⟩ := Except.map_eq_ok_iff.mp h
  obtain ⟨d₁, hfirst, hsecond⟩ := Except.bind_eq_ok_iff.mp hwrites
  have hread : d₂.read "out.bin" = .ok (textBytes haltOnly.symbols.toJson) := by
    rw [(read_of_writes hfirst hsecond).2, if_pos (of_decide_eq_true hfile)]
  have hrun : outcome (writeAssembly haltOnly "out.bin" symbolsPath) (fun _ => none) { disk := d } =
      (.ok (), d₂) := outcome_of_writes hfirst hsecond
  rw [Overwrites, hrun]
  refine ⟨rfl, hread, fun himage => ?_⟩
  rw [Except.ok.inj (hread.symm.trans himage)] at hbrace
  contradiction

/-- No image is left when both paths are the same, in four spellings of it, and
when the default path for the symbols is a link to the image. -/
theorem writeAssembly_same_path :
    (Overwrites {} "out.bin" ∧ Overwrites {} "./out.bin" ∧ Overwrites {} "../work/out.bin" ∧
      Overwrites {} "/work/out.bin") ∧
    Overwrites linkedSymbols (Symbols.pathFor "out.bin") ∧
    Overwrites sharedSymbols (Symbols.pathFor "out.bin") := by
  refine ⟨⟨?_, ?_, ?_, ?_⟩, ?_, ?_⟩ <;> exact overwrites_of_file?_eq (by decide +kernel)

end StackRisc.Tool
