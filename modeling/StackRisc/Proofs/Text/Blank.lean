import StackRisc.Text.Blank
import Mathlib.Data.List.TakeWhile

/-!
# StackRisc.Proofs.Text.Blank

What a text begins with, what trimming takes away from it, and that the case of
ASCII letters makes no difference to it.
-/

namespace StackRisc.Text

/-! ## Beginnings -/

theorem startsWith_iff {text pattern : String} :
    text.startsWith pattern = true ↔ ∃ rest, text = pattern ++ rest := by
  rw [String.startsWith_string_iff]
  constructor
  · rintro ⟨rest, hrest⟩
    exact ⟨String.ofList rest, by rw [← String.toList_inj]; simp [hrest]⟩
  · rintro ⟨rest, rfl⟩
    exact ⟨rest.toList, by simp⟩

/-! ## Letter case -/

/-- Only the lower-case ASCII letters have another upper case, 32 code points
below. -/
theorem toUpper_cases (c : Char) :
    c.toUpper = c ∨ (97 ≤ c.toNat ∧ c.toNat ≤ 122 ∧ c.toUpper.toNat = c.toNat - 32) := by
  unfold Char.toUpper
  split
  · next h =>
    have hlow : 97 ≤ c.val.toNat := h.1
    have hhigh : c.val.toNat ≤ 122 := h.2
    refine .inr ⟨hlow, hhigh, ?_⟩
    show (c.val + ('A'.val - 'a'.val)).toNat = c.val.toNat - 32
    rw [UInt32.toNat_add]
    show (c.val.toNat + 4294967264) % 4294967296 = c.val.toNat - 32
    omega
  · exact .inl rfl

/-- Capital letters take as many bytes. -/
theorem utf8Size_toUpper (c : Char) : c.toUpper.utf8Size = c.utf8Size := by
  rcases toUpper_cases c with h | ⟨hlow, hhigh, hupper⟩
  · rw [h]
  · have hsize {x : Char} (hx : x.toNat ≤ 127) : x.utf8Size = 1 :=
      Char.utf8Size_eq_one_iff.mpr hx
    rw [hsize (show c.toNat ≤ 127 by omega), hsize (show c.toUpper.toNat ≤ 127 by omega)]

/-- Case does not change the size of a text. -/
theorem utf8Size_upper (cs : List Char) : utf8Size (upper cs) = utf8Size cs := by
  induction cs with
  | nil => rfl
  | cons c cs ih =>
      show c.toUpper.utf8Size + utf8Size (upper cs) = _
      rw [utf8Size_toUpper, ih, utf8Size_cons]

theorem toList_toUpper (text : String) : text.toUpper.toList = upper text.toList := by
  rw [String.toUpper, String.toList_map, upper]

theorem isBlank_toUpper (c : Char) : isBlank c.toUpper = isBlank c := by
  rcases toUpper_cases c with h | ⟨hlow, hhigh, hupper⟩
  · rw [h]
  · have hnot {x : Char} (hlow : 65 ≤ x.toNat) (hhigh : x.toNat ≤ 122) : isBlank x = false := by
      simp only [isBlank, Bool.or_eq_false_iff, Bool.and_eq_false_iff, decide_eq_false_iff_not,
        beq_eq_false_iff_ne]
      omega
    rw [hnot (show 65 ≤ c.toNat by omega) hhigh,
      hnot (show 65 ≤ c.toUpper.toNat by omega) (show c.toUpper.toNat ≤ 122 by omega)]

/-- No letter becomes a semicolon, and none is one. -/
theorem toUpper_eq_semicolon_iff {c : Char} : c.toUpper = ';' ↔ c = ';' := by
  rcases toUpper_cases c with h | ⟨hlow, hhigh, hupper⟩
  · rw [h]
  · constructor
    · intro h
      rw [h] at hupper
      have hsemicolon : ';'.toNat = 59 := rfl
      omega
    · rintro rfl
      exact absurd hlow (by decide)

/-- Capitals stay as they are. -/
theorem toUpper_toUpper (c : Char) : c.toUpper.toUpper = c.toUpper := by
  rcases toUpper_cases c with h | ⟨hlow, hhigh, hupper⟩
  · rw [h, h]
  · exact (toUpper_cases c.toUpper).resolve_right fun h => by omega

theorem upper_upper (cs : List Char) : upper (upper cs) = upper cs := by
  rw [upper, upper, List.map_map]
  exact List.map_congr_left fun c _ => toUpper_toUpper c

theorem upper_eq_nil_iff {cs : List Char} : upper cs = [] ↔ cs = [] := List.map_eq_nil_iff

/-- Case and trimming do not disturb one another. -/
theorem upper_trim (cs : List Char) : upper (trim cs) = trim (upper cs) := by
  have hblank : isBlank ∘ Char.toUpper = isBlank := funext isBlank_toUpper
  simp only [trim, trimEnd, trimStart, upper, List.dropWhile_map, ← List.map_reverse, hblank]

/-- Nor do case and comments. -/
theorem upper_before_semicolon (cs : List Char) :
    upper (before ';' cs) = before ';' (upper cs) := by
  have hsame : (fun c => decide (c ≠ ';')) ∘ Char.toUpper = fun c => decide (c ≠ ';') :=
    funext fun c => decide_eq_decide.mpr (not_congr toUpper_eq_semicolon_iff)
  simp only [before, upper, List.takeWhile_map, hsame]

/-! ## Trimming -/

/-- What trimming takes away. -/
theorem exists_trim (cs : List Char) :
    ∃ trail, (∀ c ∈ trail, isBlank c = true) ∧
      cs = cs.takeWhile isBlank ++ trim cs ++ trail := by
  refine ⟨((trimStart cs).reverse.takeWhile isBlank).reverse, fun c hc => ?_, ?_⟩
  · exact List.mem_takeWhile_imp (List.mem_reverse.mp hc)
  · have hend : trim cs ++ ((trimStart cs).reverse.takeWhile isBlank).reverse = trimStart cs := by
      rw [trim, trimEnd, ← List.reverse_append, List.takeWhile_append_dropWhile,
        List.reverse_reverse]
    rw [List.append_assoc, hend, trimStart, List.takeWhile_append_dropWhile]

/-- A trimmed text does not end with a blank. -/
theorem isBlank_getLast?_trim (cs : List Char) : ∀ c ∈ (trim cs).getLast?, isBlank c = false := by
  intro c hc
  rw [trim, trimEnd, List.getLast?_reverse] at hc
  have hhead := List.head?_dropWhile_not isBlank (trimStart cs).reverse
  rw [Option.mem_def.mp hc] at hhead
  exact hhead

variable {blanks : List Char}

/-- Blanks in front are taken away. -/
theorem trim_blanks_append (h : ∀ c ∈ blanks, isBlank c = true) (cs : List Char) :
    trim (blanks ++ cs) = trim cs := by
  rw [trim, trimStart, List.dropWhile_append_of_pos h, trim, trimStart]

/-- Blanks at the end are taken away. -/
theorem trim_append_blanks (h : ∀ c ∈ blanks, isBlank c = true) (cs : List Char) :
    trim (cs ++ blanks) = trim cs := by
  have hrev : ∀ c ∈ blanks.reverse, isBlank c = true := fun c hc => h c (List.mem_reverse.mp hc)
  rw [trim, trimStart, List.dropWhile_append]
  split
  · next hempty =>
    have hcs : trimStart cs = [] := List.isEmpty_iff.mp hempty
    rw [trim, hcs, List.dropWhile_eq_nil_iff.mpr h]
  · rw [trimEnd, List.reverse_append, List.dropWhile_append_of_pos hrev, trim, trimEnd, trimStart]

/-- Nothing is left of blanks. -/
theorem trim_eq_nil (h : ∀ c ∈ blanks, isBlank c = true) : trim blanks = [] := by
  rw [trim, trimStart, List.dropWhile_eq_nil_iff.mpr h]
  rfl

end StackRisc.Text
