import StackRisc.Source.Line
import Mathlib.Data.List.TakeWhile

/-!
# StackRisc.Proofs.Source.Reading

Cutting a source into lines that are written plainly: in upper case, without
comment and without blanks around.

* `Text.pieces_flatMap` — lines with a separator behind each are its pieces;
* `SourceLine.clean?_eq_some` — cleaning leaves a plain line as it is.
-/

namespace StackRisc

open Text

namespace Text

/-! ## Lines of a text -/

/-- The first piece of a text ends at the first separator. -/
theorem pieces_append {separator : Char} {front : List Char} (h : separator ∉ front)
    (rest : List Char) :
    pieces separator (front ++ separator :: rest) = front :: pieces separator rest := by
  induction front with
  | nil => rw [List.nil_append, pieces, if_pos rfl]
  | cons c front ih =>
      rw [List.mem_cons, not_or] at h
      obtain ⟨hc, hfront⟩ := h
      rw [List.cons_append, pieces, if_neg (Ne.symm hc), ih hfront]

/-- A separator cuts a text into two, with their own pieces. -/
theorem pieces_append_cons (separator : Char) (front rest : List Char) :
    pieces separator (front ++ separator :: rest) =
      pieces separator front ++ pieces separator rest := by
  induction front with
  | nil => simp [pieces]
  | cons c front ih =>
      rw [List.cons_append, pieces, pieces]
      by_cases hc : c = separator
      · rw [if_pos hc, if_pos hc, ih, List.cons_append]
      · rw [if_neg hc, if_neg hc, ih]
        cases h : pieces separator front with
        | nil => exact absurd h (pieces_ne_nil separator front)
        | cons piece others => rfl

/-- A text without the separator is one piece. -/
theorem pieces_eq_singleton {separator : Char} {cs : List Char} (h : separator ∉ cs) :
    pieces separator cs = [cs] := by
  induction cs with
  | nil => rfl
  | cons c cs ih =>
      rw [List.mem_cons, not_or] at h
      rw [pieces, if_neg (Ne.symm h.1), ih h.2]

/-- More text without the separator goes to the last piece. -/
theorem exists_pieces_append {separator : Char} {suffix : List Char} (h : separator ∉ suffix)
    (cs : List Char) :
    ∃ front last, pieces separator cs = front ++ [last] ∧
      pieces separator (cs ++ suffix) = front ++ [last ++ suffix] := by
  induction cs with
  | nil => exact ⟨[], [], rfl, pieces_eq_singleton h⟩
  | cons c cs ih =>
      obtain ⟨front, last, hcs, hmore⟩ := ih
      rw [List.cons_append, pieces, pieces, hcs, hmore]
      by_cases hc : c = separator
      · exact ⟨[] :: front, last, if_pos hc, if_pos hc⟩
      · rw [if_neg hc, if_neg hc]
        cases front with
        | nil => exact ⟨[], c :: last, rfl, rfl⟩
        | cons piece front => exact ⟨(c :: piece) :: front, last, rfl, rfl⟩

/-- Texts with a separator between them are cut into the same texts. -/
theorem pieces_intercalate {separator : Char} {texts : List (List Char)} (hne : texts ≠ [])
    (h : ∀ text ∈ texts, separator ∉ text) :
    pieces separator ([separator].intercalate texts) = texts := by
  induction texts with
  | nil => contradiction
  | cons text texts ih =>
      obtain ⟨htext, htexts⟩ := List.forall_mem_cons.mp h
      cases texts with
      | nil => simpa using pieces_eq_singleton htext
      | cons next texts =>
          have hsplit : [separator].intercalate (text :: next :: texts) =
              text ++ separator :: [separator].intercalate (next :: texts) := by
            simp [List.intercalate]
          rw [hsplit, pieces_append htext, ih (List.cons_ne_nil next texts) htexts]

/-- Lines that are joined with their ends are found again. -/
theorem pieces_flatMap {separator : Char} {lines : List (List Char)}
    (h : ∀ line ∈ lines, separator ∉ line) :
    pieces separator (lines.flatMap fun line => line ++ [separator]) = lines ++ [[]] := by
  induction lines with
  | nil => rfl
  | cons line lines ih =>
      have hrest := ih fun l hl => h l (List.mem_cons_of_mem _ hl)
      rw [List.flatMap_cons, List.append_assoc, List.singleton_append,
        pieces_append (h line List.mem_cons_self), hrest, List.cons_append]

/-- A text without blanks around is not trimmed. -/
theorem trim_eq_self {cs : List Char} (hfirst : ∀ c ∈ cs.head?, isBlank c = false)
    (hlast : ∀ c ∈ cs.getLast?, isBlank c = false) : trim cs = cs := by
  have hstart : trimStart cs = cs := by
    cases cs with
    | nil => rfl
    | cons c cs => rw [trimStart, List.dropWhile_cons_of_neg (by simp [hfirst c rfl])]
  rw [trim, hstart, trimEnd]
  cases hrev : cs.reverse with
  | nil => rw [List.reverse_eq_nil_iff.mp hrev]; rfl
  | cons c rest =>
      have hc : isBlank c = false := by
        refine hlast c ?_
        rw [List.getLast?_eq_head?_reverse, hrev]
        rfl
      rw [List.dropWhile_cons_of_neg (by simp [hc]), ← hrev, List.reverse_reverse]

/-- A text without blanks is not trimmed. -/
theorem trim_eq_self_of_forall {cs : List Char} (h : ∀ c ∈ cs, isBlank c = false) : trim cs = cs :=
  trim_eq_self (fun c hc => h c (List.mem_of_head? hc)) fun c hc => h c (List.mem_of_getLast? hc)

end Text

namespace SourceLine

/-- A line that is written plainly. -/
structure Plain (raw : List Char) : Prop where
  nonempty : raw ≠ []
  oneLine : '\n' ∉ raw
  noComment : ';' ∉ raw
  upper : ∀ c ∈ raw, c.toUpper = c
  first : ∀ c ∈ raw.head?, isBlank c = false
  last : ∀ c ∈ raw.getLast?, isBlank c = false

/-- A character that words of a plain line are made of. -/
def isInk (c : Char) : Bool := c != ';' && c.toUpper == c && !isBlank c

/-- Ink is what cleaning a line keeps. -/
theorem isInk_iff {c : Char} : isInk c = true ↔ c ≠ ';' ∧ c.toUpper = c ∧ isBlank c = false := by
  simp [isInk, and_assoc]

theorem isGap_of_isInk {c : Char} (h : isInk c = true) : isGap c = false := by
  rw [← Bool.not_eq_true]
  intro hgap
  have hblank := (isInk_iff.mp h).2.2
  rw [isBlank_of_isGap hgap] at hblank
  contradiction

theorem toUpper_of_isGap {c : Char} (h : isGap c = true) : c.toUpper = c := by
  rw [isGap, Bool.or_eq_true, beq_iff_eq, beq_iff_eq] at h
  rcases h with rfl | rfl <;> rfl

/-- Words with gaps between them are a plain line. -/
theorem plain_of_words {raw : List Char} (hne : raw ≠ [])
    (hchars : ∀ c ∈ raw, isInk c = true ∨ isGap c = true)
    (hfirst : ∀ c ∈ raw.head?, isInk c = true) (hlast : ∀ c ∈ raw.getLast?, isInk c = true) :
    Plain raw where
  nonempty := hne
  oneLine hmem := absurd (hchars _ hmem) (by decide)
  noComment hmem := absurd (hchars _ hmem) (by decide)
  upper c hc := by
    rcases hchars c hc with h | h
    · exact (isInk_iff.mp h).2.1
    · exact toUpper_of_isGap h
  first c hc := (isInk_iff.mp (hfirst c hc)).2.2
  last c hc := (isInk_iff.mp (hlast c hc)).2.2

/-- Cleaning leaves a plain line as it is. -/
theorem clean?_eq_some {raw : List Char} (h : Plain raw) (number offset : Nat) :
    ∃ line, clean? number offset raw = some line ∧ line.text = raw := by
  have hcode : code raw = raw := by
    refine List.takeWhile_eq_self_iff.mpr fun c hc => ?_
    rw [decide_eq_true_eq]
    rintro rfl
    exact h.noComment hc
  have hupper : Text.upper raw = raw := (List.map_congr_left h.upper).trans (List.map_id' raw)
  rw [clean?, hcode, trim_eq_self h.first h.last, if_neg h.nonempty, hupper]
  exact ⟨_, rfl, rfl⟩

end SourceLine

end StackRisc
