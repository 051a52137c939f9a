import StackRisc.Proofs.Assembly.SecondPass
import StackRisc.Proofs.Listing

/-!
# StackRisc.Proofs.Assembly.Disassembly

Listing what was assembled.  Since an image is filled up with zeros, `BGE 0`
at the end of a program leaves no trace in it; everything before is listed:

* `Assembles.ofImage` — the listing of an assembly;
* `listing_of_assemble` — the listing of a source;
* `listing_of_hlt_bge` — a program whose last instruction is not listed.
-/

namespace StackRisc

/-- Blank branches at the end of a program that fits leave no trace in its
image. -/
theorem Instruction.image_rdropWhile (is : List Instruction)
    (h : (is.flatMap encode).length ≤ offsetLimit) :
    image (is.rdropWhile isBlank) = image is := by
  induction is using List.reverseRecOn with
  | nil => rfl
  | append_singleton is i ih =>
      by_cases hblank : i.isBlank
      · rw [List.flatMap_append, List.flatMap_singleton, encode_of_isBlank hblank,
          List.length_append, List.length_replicate] at h
        have hzeros : offsetLimit - (is.flatMap encode).length =
            5 + (offsetLimit - ((is.flatMap encode).length + 5)) := by omega
        rw [List.rdropWhile_concat_pos _ _ _ hblank, ih (by omega), image, image,
          List.flatMap_append, List.flatMap_singleton, encode_of_isBlank hblank,
          List.length_append, List.length_replicate, hzeros, List.append_assoc,
          List.replicate_append_replicate]
      · rw [List.rdropWhile_concat_neg _ _ _ hblank]

variable {source : String} {a : Assembly}

/-- The listing of an assembly: its instructions at their offsets, except
the blank branches at the end. -/
theorem Assembles.ofImage {p : SourceProgram} {is : List Instruction} (h : Assembles p is a) :
    Listing.ofImage a.image = Listing.entriesFrom 0 (is.rdropWhile Instruction.isBlank) := by
  rw [h.image, Instruction.image]
  exact Listing.ofImage_flatMap_encode is _

/-- The image of a source lists the instructions that the source stands for,
in order and each at its offset, and nothing else; only the branches to
offset 0 at the end, which are zeros like the rest of the image, are not
listed.  So the listing is complete exactly if the last instruction is no
such branch. -/
theorem listing_of_assemble (ha : (assemble source).value = .ok a) :
    ∃ p is, SourceProgram.ofSource? source = some p ∧ List.Forall₂ p.Means p.emissions is ∧
      Listing.ofImage a.image = Listing.entriesFrom 0 (is.rdropWhile (· == .bge 0)) ∧
      (Listing.ofImage a.image = Listing.entriesFrom 0 is ↔ is.getLast? ≠ some (.bge 0)) := by
  obtain ⟨p, is, hp, h⟩ := assembles_of_assemble ha
  refine ⟨p, is, hp, h.means, h.ofImage, ?_⟩
  rw [h.ofImage]
  exact Listing.entriesFrom_rdropWhile_eq_iff

/-- A program of ten bytes of which five are listed: its last instruction reads
as the zeros behind the program. -/
theorem listing_of_ldi_bge :
    ∃ a, (assemble "ldi #0\nbge $0").value = .ok a ∧
      Listing.ofImage a.image = [⟨0, .ok (.ldi 0)⟩] := by
  obtain ⟨a, ha⟩ : ∃ a, (assemble "ldi #0\nbge $0").value = .ok a :=
    Except.exists_eq_ok_of_isOk (by decide +kernel)
  obtain ⟨p, is, hp, his, hlisting, -⟩ := listing_of_assemble ha
  have hp' : (SourceProgram.ofSource? "ldi #0\nbge $0").map SourceProgram.emissions =
      some [⟨.ldi, some ⟨.decimal 0, ⟨4, 2⟩⟩⟩, ⟨.bge, some ⟨.hex 0, ⟨11, 2⟩⟩⟩] := by
    decide +kernel
  have hmeans : List.Forall₂ p.Means p.emissions [.ldi 0, .bge 0] := by
    rw [hp, Option.map_some, Option.some.injEq] at hp'
    rw [hp']
    exact .cons (p.means_ldi 0 (by decide) ⟨4, 2⟩) (.cons (p.means_bge 0 (by decide) ⟨11, 2⟩) .nil)
  obtain rfl := SourceProgram.means_list_unique his hmeans
  exact ⟨a, ha, hlisting⟩

/-- A program whose last instruction is not listed: nothing in its image
tells it from the program without that instruction. -/
theorem listing_of_hlt_bge :
    ∃ a p, (assemble "hlt\nbge $0").value = .ok a ∧
      SourceProgram.ofSource? "hlt\nbge $0" = some p ∧
      List.Forall₂ p.Means p.emissions [.hlt, .bge 0] ∧
      Listing.ofImage a.image ≠ Listing.entriesFrom 0 [.hlt, .bge 0] ∧
      ∃ a', (assemble "hlt").value = .ok a' ∧ a'.image = a.image := by
  obtain ⟨a, ha⟩ : ∃ a, (assemble "hlt\nbge $0").value = .ok a :=
    Except.exists_eq_ok_of_isOk (by decide +kernel)
  obtain ⟨a', ha'⟩ : ∃ a', (assemble "hlt").value = .ok a' :=
    Except.exists_eq_ok_of_isOk (by decide +kernel)
  obtain ⟨p, is, hp, h⟩ := assembles_of_assemble ha
  have hp' : (SourceProgram.ofSource? "hlt\nbge $0").map SourceProgram.emissions =
      some [⟨.hlt, none⟩, ⟨.bge, some ⟨.hex 0, ⟨8, 2⟩⟩⟩] := by
    decide +kernel
  have hmeans : List.Forall₂ p.Means p.emissions [.hlt, .bge 0] := by
    rw [hp, Option.map_some, Option.some.injEq] at hp'
    rw [hp']
    exact .cons (.bare .hlt) (.cons (p.means_bge 0 (by decide) ⟨8, 2⟩) .nil)
  obtain rfl := SourceProgram.means_list_unique h.means hmeans
  refine ⟨a, _, ha, hp, hmeans, ?_, a', ha', ?_⟩
  · rw [h.ofImage]
    intro heq
    exact absurd (congrArg List.length heq) (by decide)
  · obtain ⟨p', is', hp', h'⟩ := assembles_of_assemble ha'
    have hprogram : (SourceProgram.ofSource? "hlt").map SourceProgram.emissions =
        some [⟨.hlt, none⟩] := by
      decide +kernel
    have hbare : List.Forall₂ p'.Means p'.emissions [.hlt] := by
      rw [hp', Option.map_some, Option.some.injEq] at hprogram
      rw [hprogram]
      exact .cons (.bare .hlt) .nil
    obtain rfl := SourceProgram.means_list_unique h'.means hbare
    rw [h'.image, h.image]
    exact Instruction.image_rdropWhile [.hlt, .bge 0] (by decide)

end StackRisc
