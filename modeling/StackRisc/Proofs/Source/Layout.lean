import StackRisc.Source.Line
import StackRisc.Proofs.Text.Blank
import Mathlib.Logic.Relation

/-!
# StackRisc.Proofs.Source.Layout

Which changes of a source leave its cleaned lines as they are.

* `SourceLine.Edit` — a change of one line: of the case of its letters, of a
  comment, or of the blanks around its code;
* `Relayout` — a source comes from another one by such changes and by blank
  lines that are put in or taken out;
* `relayout_iff` — that is so exactly if the texts of the cleaned lines are
  the same.
-/

namespace StackRisc

open Text

namespace SourceLine

/-! ## One line -/

/-- One change of the layout of a line. -/
inductive Edit : List Char → List Char → Prop where
  /-- The case of ASCII letters. -/
  | case {raw raw' : List Char} : upper raw = upper raw' → Edit raw raw'
  /-- A comment at the end. -/
  | comment (raw text : List Char) : Edit raw (raw ++ ';' :: text)
  /-- Blanks in front. -/
  | leading {blanks : List Char} (raw : List Char) :
      (∀ c ∈ blanks, isBlank c = true) → Edit raw (blanks ++ raw)
  /-- Blanks at the end. -/
  | trailing {blanks : List Char} (raw : List Char) :
      (∀ c ∈ blanks, isBlank c = true) → Edit raw (raw ++ blanks)

/-- What is left of a line. -/
def cleaned (raw : List Char) : List Char := upper (trim (code raw))

/-- The texts that are left of lines. -/
def texts (raws : List (List Char)) : List (List Char) :=
  (raws.map cleaned).filter (· ≠ [])

variable {raw raw' : List Char}

/-- A raw line is kept as its cleaned text, unless this is empty. -/
theorem map_text_clean? (number offset : Nat) (raw : List Char) :
    (clean? number offset raw).toList.map (·.text) = [cleaned raw].filter (· ≠ []) := by
  unfold clean? cleaned
  by_cases h : trim (code raw) = []
  · simp [h, upper]
  · simp [h, upper_eq_nil_iff]

/-- So are all lines. -/
theorem map_text_cleanAll (number offset : Nat) (raws : List (List Char)) :
    (cleanAll number offset raws).map (·.text) = texts raws := by
  induction raws generalizing number offset with
  | nil => rfl
  | cons raw raws ih =>
      rw [cleanAll, List.map_append, map_text_clean?, ih, texts, texts, List.map_cons,
        ← List.filter_append, List.singleton_append]

/-- A comment is not code. -/
theorem code_append_comment (raw text : List Char) : code (raw ++ ';' :: text) = code raw := by
  simp only [code, before]
  rw [List.takeWhile_append]
  split
  · next hall =>
    rw [List.takeWhile_cons_of_neg (by simp), List.append_nil]
    exact (List.takeWhile_prefix _).eq_of_length hall |>.symm
  · rfl

/-- A line is code, with or without a comment behind it. -/
theorem eq_code_or_exists_comment (raw : List Char) :
    raw = code raw ∨ ∃ text, raw = code raw ++ ';' :: text := by
  induction raw with
  | nil => exact .inl rfl
  | cons c raw ih =>
      by_cases hc : c = ';'
      · exact .inr ⟨raw, by rw [code, before, hc, List.takeWhile_cons_of_neg (by simp)]; rfl⟩
      · have hcode : code (c :: raw) = c :: code raw := by
          rw [code, before, List.takeWhile_cons_of_pos (by simpa using hc), code, before]
        rw [hcode]
        rcases ih with h | ⟨text, h⟩
        · exact .inl (congrArg (c :: ·) h)
        · exact .inr ⟨text, congrArg (c :: ·) h⟩

theorem ne_semicolon_of_isBlank {c : Char} (h : isBlank c = true) : decide (c ≠ ';') = true := by
  rw [decide_eq_true_eq]
  rintro rfl
  exact absurd h (by decide)

/-- Nothing is left of a blank line. -/
theorem cleaned_eq_nil (h : ∀ c ∈ raw, isBlank c = true) : cleaned raw = [] := by
  have hcode : code raw = raw :=
    List.takeWhile_eq_self_iff.mpr fun c hc => ne_semicolon_of_isBlank (h c hc)
  rw [cleaned, hcode, trim_eq_nil h]
  rfl

/-- A change of the layout of a line does not change what is left of it. -/
theorem Edit.cleaned_eq (h : Edit raw raw') : cleaned raw = cleaned raw' := by
  unfold cleaned
  cases h with
  | case hupper =>
      rw [upper_trim, upper_trim, code, code, upper_before_semicolon, hupper,
        upper_before_semicolon]
  | comment text => rw [code_append_comment]
  | leading _ hblank =>
      have hcode : ∀ c ∈ _, decide (c ≠ ';') = true :=
        fun c hc => ne_semicolon_of_isBlank (hblank c hc)
      rw [code, code, before, before, List.takeWhile_append_of_pos hcode,
        trim_blanks_append hblank]
  | trailing _ hblank =>
      rw [code, code, before, before, List.takeWhile_append]
      split
      · next hall =>
        rw [List.takeWhile_eq_self_iff.mpr fun c hc => ne_semicolon_of_isBlank (hblank c hc),
          trim_append_blanks hblank, (List.takeWhile_prefix _).eq_of_length hall]
      · rfl

end SourceLine

/-! ## Whole sources -/

/-- One change of the layout of a source that is given by its lines. -/
inductive LayoutStep : List (List Char) → List (List Char) → Prop where
  /-- A change of one line. -/
  | line (front back : List (List Char)) {raw raw' : List Char} :
      SourceLine.Edit raw raw' → LayoutStep (front ++ raw :: back) (front ++ raw' :: back)
  /-- A blank line that is put in. -/
  | blank (front back : List (List Char)) {blanks : List Char} :
      (∀ c ∈ blanks, isBlank c = true) → LayoutStep (front ++ back) (front ++ blanks :: back)

/-- Two sources differ only in their layout: one comes from the other by
changes of the layout and by taking such changes back.  So a comment can be
taken out or changed, the line end can get or lose a carriage return, and a
line with nothing but a comment is a blank one with a comment put behind it. -/
def Relayout (source source' : String) : Prop :=
  Relation.EqvGen LayoutStep (pieces '\n' source.toList) (pieces '\n' source'.toList)

open SourceLine

variable {raws raws' : List (List Char)} {source source' : String}

/-- A change of the layout does not change what is left of the lines. -/
theorem LayoutStep.texts_eq (h : LayoutStep raws raws') : texts raws = texts raws' := by
  cases h with
  | line front back hedit =>
      simp only [texts, List.map_append, List.map_cons, hedit.cleaned_eq]
  | blank front back hblank =>
      have hnothing : cleaned _ = [] := cleaned_eq_nil hblank
      simp [texts, hnothing]

theorem LayoutStep.cons (h : LayoutStep raws raws') (raw : List Char) :
    LayoutStep (raw :: raws) (raw :: raws') := by
  cases h with
  | line front back hedit => exact .line (raw :: front) back hedit
  | blank front back hblank => exact .blank (raw :: front) back hblank

/-- Lines can be changed behind another one. -/
theorem eqvGen_cons (h : Relation.EqvGen LayoutStep raws raws') (raw : List Char) :
    Relation.EqvGen LayoutStep (raw :: raws) (raw :: raws') := by
  induction h with
  | rel _ _ h => exact .rel _ _ (h.cons raw)
  | refl => exact .refl _
  | symm _ _ _ ih => exact .symm _ _ ih
  | trans _ _ _ _ _ ih ih' => exact .trans _ _ _ ih ih'

/-- Changes of the layout lead from a line to what is left of it: the comment
goes, then the blanks around, then the lower case. -/
theorem eqvGen_cleaned (raw : List Char) (raws : List (List Char)) :
    Relation.EqvGen LayoutStep (raw :: raws) (cleaned raw :: raws) := by
  have hedit {raw raw' : List Char} (h : Edit raw raw') :
      Relation.EqvGen LayoutStep (raw :: raws) (raw' :: raws) := .rel _ _ (.line [] raws h)
  have hcode : Relation.EqvGen LayoutStep (code raw :: raws) (raw :: raws) := by
    rcases eq_code_or_exists_comment raw with h | ⟨text, h⟩
    · rw [← h]
      exact .refl _
    · have hcomment := hedit (.comment (code raw) text)
      rwa [← h] at hcomment
  have htrim : Relation.EqvGen LayoutStep (trim (code raw) :: raws) (code raw :: raws) := by
    obtain ⟨trail, htrail, hsplit⟩ := exists_trim (code raw)
    have hlead := hedit (.leading (trim (code raw)) fun c (hc : c ∈ (code raw).takeWhile isBlank) =>
      List.mem_takeWhile_imp hc)
    have hall := hedit (.trailing ((code raw).takeWhile isBlank ++ trim (code raw)) htrail)
    rw [← hsplit] at hall
    exact .trans _ _ _ hlead hall
  have hupper := hedit (.case (upper_upper (trim (code raw))).symm)
  exact .trans _ _ _ (.symm _ _ (.trans _ _ _ htrim hcode)) hupper

/-- Changes of the layout lead from lines to what is left of them. -/
theorem eqvGen_texts (raws : List (List Char)) :
    Relation.EqvGen LayoutStep raws (texts raws) := by
  induction raws with
  | nil => exact .refl _
  | cons raw raws ih =>
      refine .trans _ _ _ (eqvGen_cleaned raw raws) (.trans _ _ _ (eqvGen_cons ih _) ?_)
      by_cases h : cleaned raw = []
      · have hblank : LayoutStep (texts raws) ([] :: texts raws) :=
          .blank [] (texts raws) fun _ hc => absurd hc List.not_mem_nil
        simpa [texts, h] using Relation.EqvGen.symm _ _ (.rel _ _ hblank)
      · simpa [texts, h] using Relation.EqvGen.refl (r := LayoutStep) (cleaned raw :: texts raws)

/-- The lines of a source are its cleaned lines that are not empty. -/
theorem SourceLine.map_text_ofSource (source : String) :
    (ofSource source).map (·.text) = texts (pieces '\n' source.toList) :=
  map_text_cleanAll 1 0 _

/-- Two sources differ only in their layout exactly if the same is left of
their lines. -/
theorem relayout_iff :
    Relayout source source' ↔
      (ofSource source).map (·.text) = (ofSource source').map (·.text) := by
  rw [map_text_ofSource, map_text_ofSource]
  constructor
  · intro h
    unfold Relayout at h
    generalize pieces '\n' source.toList = raws, pieces '\n' source'.toList = raws' at h
    induction h with
    | rel _ _ h => exact h.texts_eq
    | refl => rfl
    | symm _ _ _ ih => exact ih.symm
    | trans _ _ _ _ _ ih ih' => exact ih.trans ih'
  · intro h
    refine .trans _ _ _ (eqvGen_texts _) ?_
    rw [h]
    exact .symm _ _ (eqvGen_texts _)

end StackRisc
