import Mathlib.Algebra.GroupWithZero.Nat
import StackRisc.CommandLine.Completion
import StackRisc.Proofs.CommandLine.Words
import StackRisc.Proofs.Source.Places

/-!
# StackRisc.Proofs.CommandLine.TypedWord

The word that is typed in front of the cursor.  It is the last word of the line
so far as that word is read, which need not be how it was typed: quotes,
backslashes and comments are left out.

* `sum_size_wordsFrom` — words are not longer than the line they are read from;
* `EndsBare.lastTyped?` — a word that is typed bare is the end of the line;
* `endsBare_of_simple` — on lines without quotes, backslashes and comments it is.
-/

namespace StackRisc.CommandLine

open Text

/-! ## Places in a text -/

section

variable {a b c d : List Char}

theorem utf8Size_reverse (cs : List Char) : utf8Size cs.reverse = utf8Size cs := by
  induction cs with
  | nil => rfl
  | cons c cs ih => simp [ih, Nat.add_comm]

/-- Taking the size of a text from the front gives the text. -/
theorem takeBytes_append (a b : List Char) : takeBytes (utf8Size a) (a ++ b) = a := by
  induction a with
  | nil =>
      cases b with
      | nil => rfl
      | cons c b => simp [takeBytes, Nat.not_le.mpr c.utf8Size_pos]
  | cons c a ih => simp [takeBytes, ih]

/-- Dropping the size of a text from the front leaves the rest. -/
theorem dropBytes?_append (a b : List Char) : dropBytes? (utf8Size a) (a ++ b) = some b := by
  induction a with
  | nil => simp [dropBytes?]
  | cons c a ih =>
      obtain ⟨n, hn⟩ : ∃ n, utf8Size (c :: a) = n + 1 :=
        Nat.exists_eq_add_one.mpr (Nat.add_pos_left c.utf8Size_pos _)
      have hfits : c.utf8Size ≤ n + 1 := by
        rw [← hn]
        exact Nat.le_add_right _ _
      have hrest : n + 1 - c.utf8Size = utf8Size a := by
        rw [← hn]
        exact Nat.add_sub_cancel_left _ _
      rw [hn, List.cons_append, dropBytes?, if_pos hfits, hrest, ih]

/-- Two beginnings of one text that have the same size are the same. -/
theorem append_inj_of_utf8Size (h : a ++ b = c ++ d) (hsize : utf8Size a = utf8Size c) :
    a = c := by
  have ha := takeBytes_append a b
  rw [h, hsize, takeBytes_append] at ha
  exact ha.symm

end

/-! ## Sizes of words -/

/-- The bytes of the word that is being read. -/
def Place.size : Place → Nat
  | between | comment => 0
  | plain word | single word | double word => utf8Size word

/-- A word takes as many bytes as its characters. -/
theorem utf8ByteSize_wordOf (reversed : List Char) :
    (wordOf reversed).utf8ByteSize = utf8Size reversed := by
  rw [wordOf, utf8ByteSize_ofList, utf8Size_reverse]

/-- Quotes, backslashes, comments and separators are left out, and nothing is
added: all words together are not longer than what they are read from. -/
theorem sum_size_wordsFrom {p : Place} {cs : List Char} {words : List String}
    (h : wordsFrom p cs = some words) :
    (words.map String.utf8ByteSize).sum ≤ p.size + utf8Size cs := by
  fun_induction wordsFrom p cs generalizing words with
  | case4 =>
      cases h
      decide
  | case12 word =>
      cases h
      simp [Place.size, utf8ByteSize_wordOf]
  | case15 word =>
      cases h
      simp [Place.size, utf8ByteSize_wordOf, Nat.add_comm]
  | case17 word c rest _ _ _ _ _ ih =>
      obtain ⟨others, hothers, rfl⟩ := Option.map_eq_some_iff.mp h
      have hrest := ih hothers
      simp only [Place.size, List.map_cons, List.sum_cons, utf8ByteSize_wordOf,
        utf8Size_cons] at hrest ⊢
      omega
  | _ => grind [Place.size, utf8Size]

/-! ## The word at the cursor -/

/-- The word that is typed in front of the cursor: the last one of the line so
far, or an empty one behind a space or a tab and where there is none. -/
def lastTyped? (front : String) : Option String :=
  (words? front).map fun words =>
    if front.toList.getLast?.any isGap then "" else words.getLast?.getD ""

section

variable {front word : String} {words : List String}

/-- The last word that was typed, if the quotes are closed. -/
theorem lastTyped?_eq (front : String) :
    lastTyped? front = (typedWords? front.toList).map fun words => words.getLast?.getD "" := by
  unfold lastTyped? typedWords? words?
  cases wordsFrom .between front.toList with
  | none => rfl
  | some words =>
      cases front.toList.getLast? with
      | none => simp
      | some c => by_cases hc : isGap c <;> simp [hc]

/-- The word in front of the cursor is not longer than the line up to there. -/
theorem size_lastTyped?_le (h : lastTyped? front = some word) :
    word.utf8ByteSize ≤ front.utf8ByteSize := by
  obtain ⟨words, hwords, rfl⟩ := Option.map_eq_some_iff.mp h
  have hsum : (words.map String.utf8ByteSize).sum ≤ front.utf8ByteSize := by
    simpa [Place.size, utf8Size_toList] using sum_size_wordsFrom hwords
  cases hlast : words.getLast? with
  | none => simp
  | some last =>
      obtain ⟨before, rfl⟩ := List.getLast?_eq_some_iff.mp hlast
      have hle : last.utf8ByteSize ≤ front.utf8ByteSize := by
        simp only [List.map_append, List.sum_append, List.map_singleton, List.sum_singleton] at hsum
        omega
      split <;> simp [hle]

/-- A text behind which the reader is between words: what follows is read on
its own. -/
def Separate (front : List Char) : Prop :=
  ∃ words, ∀ rest, wordsFrom .between (front ++ rest) =
    (wordsFrom .between rest).map (words ++ ·)

/-- The word in front of the cursor is typed bare: what is in front of it is
read on its own, and it needs no quotes, or it is empty, behind a space or a tab
or at the start of the line. -/
def EndsBare (front : String) : Prop :=
  ∃ before typed : String, front = before ++ typed ∧ Separate before.toList ∧
    (IsBare typed.toList ∨
      typed = "" ∧ (before = "" ∨ before.toList.getLast?.any isGap = true))

/-- A character is ordinary unless it separates, quotes or escapes. -/
theorem isOrdinary_iff {c : Char} :
    isOrdinary c = true ↔ isSeparator c = false ∧ c ≠ '\'' ∧ c ≠ '"' ∧ c ≠ '\\' := by
  simp [isOrdinary, and_assoc]

/-- A bare word is the one that was typed. -/
theorem EndsBare.lastTyped? (h : EndsBare front) :
    ∃ before typed : String, front = before ++ typed ∧
      CommandLine.lastTyped? front = some typed := by
  obtain ⟨before, typed, rfl, ⟨words, hwords⟩, hbare | ⟨rfl, hempty⟩⟩ := h
  · have hline : words? (before ++ typed) = some (words ++ [typed]) := by
      rw [words?, String.toList_append, hwords, wordsFrom_bare hbare, String.ofList_toList]
      rfl
    obtain ⟨c, hc⟩ := Option.ne_none_iff_exists'.mp (mt List.getLast?_eq_none_iff.mp hbare.ne_nil)
    have hgap : isGap c = false := by
      have hseparator := (isOrdinary_iff.mp (hbare.ordinary c (List.mem_of_getLast? hc))).1
      revert hseparator
      simp only [isSeparator, isGap, Bool.or_eq_false_iff]
      exact And.left
    refine ⟨before, typed, rfl, ?_⟩
    rw [CommandLine.lastTyped?, hline]
    simp [hc, hgap]
  · refine ⟨before, "", rfl, ?_⟩
    have hline : words? (before ++ "") = some words := by
      simpa [words?, wordsFrom] using hwords []
    rw [CommandLine.lastTyped?, hline]
    rcases hempty with rfl | hgap
    · obtain rfl : [] = words := Option.some.inj hline
      simp
    · simp [hgap]

/-! ## Lines without quotes -/

/-- A character that is nothing but part of a word, or between words. -/
def isSimple (c : Char) : Bool := (isOrdinary c || isGap c) && c != '#'

theorem isOrdinary_of_isSimple {c : Char} (h : isSimple c = true) (hgap : isGap c = false) :
    isOrdinary c = true := by
  simp only [isSimple, hgap, Bool.or_false, Bool.and_eq_true] at h
  exact h.1

/-- Gaps between words are passed. -/
theorem wordsFrom_between_gap {c : Char} (h : isGap c = true) (rest : List Char) :
    wordsFrom .between (c :: rest) = wordsFrom .between rest := by
  simp only [isGap, Bool.or_eq_true, beq_iff_eq] at h
  rcases h with rfl | rfl <;> rfl

/-- A gap ends a word. -/
theorem wordsFrom_plain_gap {c : Char} (h : isGap c = true) (word rest : List Char) :
    wordsFrom (.plain word) (c :: rest) =
      (wordsFrom .between rest).map (wordOf word :: ·) := by
  simp only [isGap, Bool.or_eq_true, beq_iff_eq] at h
  rcases h with rfl | rfl <;> rfl

/-- Simple characters that end with a gap end a word that was begun, and leave
none. -/
theorem separate_of_simple {cs : List Char} (h : ∀ c ∈ cs, isSimple c = true)
    (hend : ∀ c ∈ cs.getLast?, isGap c = true) :
    Separate cs ∧ (cs ≠ [] → ∀ word, ∃ words, ∀ rest, wordsFrom (.plain word) (cs ++ rest) =
      (wordsFrom .between rest).map (words ++ ·)) := by
  induction cs with
  | nil => exact ⟨⟨[], fun rest => by simp⟩, fun hne => absurd rfl hne⟩
  | cons c cs ih =>
      obtain ⟨hc, hcs⟩ := List.forall_mem_cons.mp h
      have hlater : ∀ x ∈ cs.getLast?, isGap x = true := by
        intro x hx
        obtain ⟨front, rfl⟩ := List.getLast?_eq_some_iff.mp hx
        exact hend x (by simp [List.getLast?_cons])
      obtain ⟨⟨words, hwords⟩, hplain⟩ := ih hcs hlater
      cases hgap : isGap c with
      | true =>
          constructor
          · exact ⟨words, fun rest => by rw [List.cons_append, wordsFrom_between_gap hgap, hwords]⟩
          · intro _ word
            refine ⟨wordOf word :: words, fun rest => ?_⟩
            rw [List.cons_append, wordsFrom_plain_gap hgap, hwords, Option.map_map]
            rfl
      | false =>
          have hne : cs ≠ [] := by
            rintro rfl
            simp [hgap] at hend
          have hordinary := isOrdinary_of_isSimple hc hgap
          have hstart : c ≠ '#' := by
            rintro rfl
            contradiction
          constructor
          · obtain ⟨words, hwords⟩ := hplain hne [c]
            exact ⟨words, fun rest => by
              rw [List.cons_append, wordsFrom_between_cons hordinary hstart, hwords]⟩
          · intro _ word
            obtain ⟨words, hwords⟩ := hplain hne (c :: word)
            exact ⟨words, fun rest => by rw [List.cons_append, wordsFrom_plain_cons hordinary, hwords]⟩

/-- A line of simple characters ends with a bare word. -/
theorem endsBare_of_simple (h : ∀ c ∈ front.toList, isSimple c = true) : EndsBare front := by
  let notGap : Char → Bool := fun c => !isGap c
  let before := (front.toList.reverse.dropWhile notGap).reverse
  let typed := (front.toList.reverse.takeWhile notGap).reverse
  have hsplit : front.toList = before ++ typed := by
    rw [← List.reverse_append, List.takeWhile_append_dropWhile, List.reverse_reverse]
  have hbefore : ∀ c ∈ before, isSimple c = true := fun c hc =>
    h c (by rw [hsplit]; exact List.mem_append_left _ hc)
  have htyped : ∀ c ∈ typed, isSimple c = true ∧ isGap c = false := by
    intro c hc
    refine ⟨h c (by rw [hsplit]; exact List.mem_append_right _ hc), ?_⟩
    have hnot := List.mem_takeWhile_imp (List.mem_reverse.mp hc)
    simpa [notGap] using hnot
  have hend : ∀ c ∈ before.getLast?, isGap c = true := by
    intro c hc
    rw [List.getLast?_reverse] at hc
    have hhead := List.head?_dropWhile_not notGap front.toList.reverse
    rw [Option.mem_def.mp hc] at hhead
    simpa [notGap] using hhead
  refine ⟨String.ofList before, String.ofList typed, ?_, ?_, ?_⟩
  · rw [← String.ofList_append, ← hsplit, String.ofList_toList]
  · rw [String.toList_ofList]
    exact (separate_of_simple hbefore hend).1
  · by_cases hempty : typed = []
    · refine .inr ⟨by rw [hempty], ?_⟩
      cases hlast : before.getLast? with
      | none => exact .inl (by rw [List.getLast?_eq_none_iff.mp hlast])
      | some c => exact .inr (by simp [hlast, hend c hlast])
    · refine .inl ⟨by simpa using hempty, ?_, ?_⟩
      · rw [String.toList_ofList]
        intro hhead
        have hmark := (htyped '#' (List.mem_of_head? hhead)).1
        contradiction
      · rw [String.toList_ofList]
        exact fun c hc => isOrdinary_of_isSimple (htyped c hc).1 (htyped c hc).2

end

end StackRisc.CommandLine
