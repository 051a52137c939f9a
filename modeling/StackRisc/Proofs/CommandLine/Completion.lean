import StackRisc.Proofs.CommandLine.TypedWord
import StackRisc.Proofs.Text.Blank

/-!
# StackRisc.Proofs.CommandLine.Completion

What is completed and hinted at the cursor.  Candidates go on from the last word
as it is read, and the number of bytes to replace is the size of that word, not
of what was typed for it:

* `CommandTree.suggest_eq` — the candidates, by the command that is chosen and
  the word that is typed;
* `Completer.hint?_of_complete` — a hint is what is missing of the only
  candidate;
* `Completer.complete_extends_word` — when a candidate goes on from the text
  that it replaces;
* `Completer.complete_cuts_quotes` — a word between quotes, where none does.
-/

namespace StackRisc.CommandLine

open Text

/-! ## Candidates -/

/-- Capital letters take as many bytes. -/
theorem utf8ByteSize_toUpper (text : String) : text.toUpper.utf8ByteSize = text.utf8ByteSize := by
  rw [← utf8Size_toList, toList_toUpper, utf8Size_upper, utf8Size_toList]

theorem toUpper_toUpper_eq (text : String) : text.toUpper.toUpper = text.toUpper := by
  rw [← String.toList_inj, toList_toUpper, toList_toUpper, upper_upper]

/-- How a word stands at the beginning of a candidate: as it is, or in upper
case. -/
def IsFormOf (typed word : String) : Prop := typed = word ∨ typed = word.toUpper

/-- A word that was typed in another case takes as many bytes. -/
theorem IsFormOf.utf8ByteSize_eq {typed word : String} (h : IsFormOf typed word) :
    typed.utf8ByteSize = word.utf8ByteSize := by
  rcases h with rfl | rfl
  · rfl
  · exact utf8ByteSize_toUpper word

/-- A word and its forms are the same in capitals. -/
theorem IsFormOf.toUpper_eq {typed word : String} (h : IsFormOf typed word) :
    typed.toUpper = word.toUpper := by
  rcases h with rfl | rfl
  · rfl
  · exact toUpper_toUpper_eq word

/-- Two beginnings of one candidate that have the same size are the same. -/
theorem beginning_eq {a b c d : String} (h : a ++ b = c ++ d)
    (hsize : a.utf8ByteSize = c.utf8ByteSize) : a = c ∧ b = d := by
  have hchars : a.toList ++ b.toList = c.toList ++ d.toList := by
    rw [← String.toList_append, h, String.toList_append]
  have hbegin := append_inj_of_utf8Size hchars (by rw [utf8Size_toList, utf8Size_toList, hsize])
  rw [hbegin, List.append_cancel_left_eq] at hchars
  exact ⟨String.toList_inj.mp hbegin, String.toList_inj.mp hchars⟩

namespace CommandTree

/-- A candidate extends a word exactly if it starts with a form of it. -/
theorem extendsWord_iff {word candidate : String} :
    extendsWord word candidate = true ↔
      ∃ typed rest, candidate = typed ++ rest ∧ IsFormOf typed word := by
  rw [extendsWord, Bool.or_eq_true, startsWith_iff, startsWith_iff]
  constructor
  · rintro (⟨rest, hrest⟩ | ⟨rest, hrest⟩)
    · exact ⟨word, rest, hrest, .inl rfl⟩
    · exact ⟨word.toUpper, rest, hrest, .inr rfl⟩
  · rintro ⟨typed, rest, hrest, rfl | rfl⟩
    · exact .inl ⟨rest, hrest⟩
    · exact .inr ⟨rest, hrest⟩

/-- A candidate that goes on from two words of the same size has one beginning
for both. -/
theorem exists_shared_beginning {word typed candidate : String}
    (hsize : typed.utf8ByteSize = word.utf8ByteSize) (hword : extendsWord word candidate = true)
    (htyped : extendsWord typed candidate = true) :
    ∃ start rest, candidate = start ++ rest ∧ IsFormOf start word ∧ IsFormOf start typed := by
  obtain ⟨start, rest, hcandidate, hstart⟩ := extendsWord_iff.mp hword
  obtain ⟨start', rest', hcandidate', hstart'⟩ := extendsWord_iff.mp htyped
  have hsame : start = start' := by
    refine (beginning_eq (hcandidate.symm.trans hcandidate') ?_).1
    rw [hstart.utf8ByteSize_eq, hstart'.utf8ByteSize_eq, hsize]
  exact ⟨start, rest, hcandidate, hstart, hsame ▸ hstart'⟩

/-- When candidates that go on from a word go on from a text of the same size as
well. -/
theorem forall_extendsWord_iff {word typed : String} {candidates : List String}
    (hne : candidates ≠ []) (hsize : typed.utf8ByteSize = word.utf8ByteSize)
    (hword : ∀ candidate ∈ candidates, extendsWord word candidate = true) :
    (∀ candidate ∈ candidates, extendsWord typed candidate = true) ↔
      typed = word ∨ typed.toUpper = word.toUpper ∧
        ∀ candidate ∈ candidates, candidate.startsWith word.toUpper = true := by
  constructor
  · intro htyped
    have hshared : ∀ candidate ∈ candidates, ∃ start rest, candidate = start ++ rest ∧
        IsFormOf start word ∧ IsFormOf start typed := fun candidate hmem =>
      exists_shared_beginning hsize (hword candidate hmem) (htyped candidate hmem)
    have hcase : typed.toUpper = word.toUpper := by
      obtain ⟨candidate, hmem⟩ := List.exists_mem_of_ne_nil candidates hne
      obtain ⟨start, -, -, hstart, hstart'⟩ := hshared candidate hmem
      rw [← hstart.toUpper_eq, hstart'.toUpper_eq]
    by_cases hsame : typed = word
    · exact .inl hsame
    · refine .inr ⟨hcase, fun candidate hmem => startsWith_iff.mpr ?_⟩
      obtain ⟨start, rest, hcandidate, hstart, hstart'⟩ := hshared candidate hmem
      have hupper : start = word.toUpper := by
        rcases hstart with rfl | hupper
        · -- It is not `typed`, which is another text, so it is in upper case.
          exact (hstart'.resolve_left (Ne.symm hsame)).trans hcase
        · exact hupper
      exact ⟨rest, hupper ▸ hcandidate⟩
  · rintro (rfl | ⟨hcase, hupper⟩) candidate hmem
    · exact hword candidate hmem
    · rw [extendsWord, hcase, hupper candidate hmem, Bool.or_true]

variable {ν α : Type}

/-- The command that some words choose one below the other, by their full
names. -/
def descend? (t : CommandTree ν α) : List String → Option (CommandTree ν α)
  | [] => some t
  | word :: rest => (t.find? word).bind fun sub => sub.descend? rest

/-- The candidates are what can follow the command that the words in front
choose, as far as it goes on from the last word. -/
theorem suggest_eq (t : CommandTree ν α) (symbols words : List String) :
    t.suggest symbols words =
      match t.descend? words.dropLast with
      | some sub =>
        let word := words.getLast?.getD ""
        (word.utf8ByteSize, (sub.followers symbols).filter (extendsWord word))
      | none => (0, []) := by
  fun_induction suggest symbols t words with
  | case1 t =>
      have hall : ∀ candidate, extendsWord "" candidate = true := fun candidate =>
        extendsWord_iff.mpr ⟨"", candidate, by simp, .inl rfl⟩
      have hfilter : (t.followers symbols).filter (extendsWord "") = t.followers symbols :=
        List.filter_eq_self.mpr fun candidate _ => hall candidate
      simp [descend?, hfilter]
  | case2 t word => simp [descend?]
  | case3 t word rest hrest sub hfind ih =>
      obtain ⟨next, rest, rfl⟩ := List.exists_cons_of_ne_nil (l := rest) (by simpa using hrest)
      rw [ih, List.dropLast_cons_of_ne_nil (List.cons_ne_nil _ _), descend?, hfind,
        List.getLast?_cons_cons]
      rfl
  | case4 t word rest hrest hfind =>
      obtain ⟨next, rest, rfl⟩ := List.exists_cons_of_ne_nil (l := rest) (by simpa using hrest)
      rw [List.dropLast_cons_of_ne_nil (List.cons_ne_nil _ _), descend?, hfind]
      rfl

end CommandTree

/-! ## Completion and hints -/

namespace Completer

open CommandTree

variable {ν α : Type} {c : Completer ν α} {front back word : String}

/-- Only the text before the cursor is completed. -/
theorem suggest?_front (c : Completer ν α) (front back : String) :
    c.suggest? (front ++ back) front.utf8ByteSize =
      (typedWords? front.toList).map (c.commands.suggest c.symbols) := by
  rw [suggest?, String.toList_append, ← utf8Size_toList, takeBytes_append]

/-- What is offered when something is: the size to replace is that of the word in
front of the cursor, and every candidate goes on from it. -/
theorem exists_word_of_complete
    (h : (c.complete (front ++ back) front.utf8ByteSize).candidates ≠ []) :
    ∃ word, lastTyped? front = some word ∧
      c.suggest? (front ++ back) front.utf8ByteSize =
        some (word.utf8ByteSize, (c.complete (front ++ back) front.utf8ByteSize).candidates) ∧
      (c.complete (front ++ back) front.utf8ByteSize).start + word.utf8ByteSize =
        front.utf8ByteSize ∧
      ∀ candidate ∈ (c.complete (front ++ back) front.utf8ByteSize).candidates,
        extendsWord word candidate = true := by
  rw [complete, suggest?_front] at h ⊢
  cases hwords : typedWords? front.toList with
  | none => simp [hwords] at h
  | some words =>
      simp only [hwords, Option.map_some, suggest_eq] at h ⊢
      have hword : lastTyped? front = some (words.getLast?.getD "") := by
        rw [lastTyped?_eq, hwords, Option.map_some]
      have hsize := size_lastTyped?_le hword
      cases hsub : c.commands.descend? words.dropLast with
      | none => simp [hsub] at h
      | some sub =>
          refine ⟨_, hword, rfl, Nat.sub_add_cancel hsize, fun candidate hmem => ?_⟩
          exact (List.mem_filter.mp hmem).2

/-- The hint is what is missing of the only candidate. -/
theorem hint?_eq_of_suggest? {line hint candidate typed : String} {cursor : Nat}
    (h : c.suggest? line cursor = some (typed.utf8ByteSize, [candidate]))
    (hcandidate : candidate = typed ++ hint) : c.hint? line cursor = some hint := by
  have hdrop : dropBytes? typed.utf8ByteSize candidate.toList = some hint.toList := by
    rw [hcandidate, String.toList_append, ← utf8Size_toList, dropBytes?_append]
  simp [hint?, h, hdrop]

/-- There is no hint unless one candidate is left. -/
theorem hint?_eq_none {line : String} {cursor : Nat}
    (h : ∀ candidate, (c.complete line cursor).candidates ≠ [candidate]) :
    c.hint? line cursor = none := by
  rw [hint?]
  split
  · next size candidate hsuggest =>
    rw [complete, hsuggest] at h
    exact absurd rfl (h candidate)
  · rfl

/-- If there is one candidate, there is a hint. -/
theorem exists_hint {candidate : String}
    (h : (c.complete (front ++ back) front.utf8ByteSize).candidates = [candidate]) :
    ∃ typed hint word, c.hint? (front ++ back) front.utf8ByteSize = some hint ∧
      candidate = typed ++ hint ∧
      (c.complete (front ++ back) front.utf8ByteSize).start + typed.utf8ByteSize =
        front.utf8ByteSize ∧
      lastTyped? front = some word ∧ IsFormOf typed word := by
  obtain ⟨word, hword, hsuggest, hstart, hextends⟩ :=
    exists_word_of_complete (h ▸ List.cons_ne_nil candidate [])
  rw [h] at hsuggest hextends
  obtain ⟨typed, hint, hcandidate, htyped⟩ :=
    extendsWord_iff.mp (hextends candidate List.mem_cons_self)
  rw [← htyped.utf8ByteSize_eq] at hsuggest hstart
  exact ⟨typed, hint, word, hint?_eq_of_suggest? hsuggest hcandidate, hcandidate, hstart, hword,
    htyped⟩

/-- With the cursor behind some text of a line, there is a hint exactly if there
is one candidate.  It is the candidate without what stands in front, which has
the size of what the candidate would replace, and which is the word in front of
the cursor, as it is read or in upper case.  So no character is cut. -/
theorem hint?_of_complete (c : Completer ν α) (front back : String) :
    let line := front ++ back
    let cursor := front.utf8ByteSize
    let r := c.complete line cursor
    ((c.hint? line cursor).isSome = true ↔ ∃ candidate, r.candidates = [candidate]) ∧
    ∀ hint, c.hint? line cursor = some hint ↔
      ∃ candidate typed word, r.candidates = [candidate] ∧ candidate = typed ++ hint ∧
        r.start + typed.utf8ByteSize = cursor ∧ lastTyped? front = some word ∧
        (typed = word ∨ typed = word.toUpper) := by
  intro line cursor r
  have hsingle : (c.hint? line cursor).isSome = true → ∃ candidate, r.candidates = [candidate] := by
    intro hsome
    by_contra hmany
    rw [hint?_eq_none (not_exists.mp hmany)] at hsome
    contradiction
  refine ⟨⟨hsingle, ?_⟩, fun hint => ⟨fun hhint => ?_, ?_⟩⟩
  · rintro ⟨candidate, hr⟩
    obtain ⟨_, hint, _, hhint, -⟩ := exists_hint hr
    exact Option.isSome_iff_exists.mpr ⟨hint, hhint⟩
  · obtain ⟨candidate, hr⟩ := hsingle (Option.isSome_iff_exists.mpr ⟨hint, hhint⟩)
    obtain ⟨typed, hint', word, hhint', hrest⟩ := exists_hint hr
    obtain rfl : hint' = hint := Option.some.inj (hhint'.symm.trans hhint)
    exact ⟨candidate, typed, word, hr, hrest⟩
  · rintro ⟨candidate, typed, word, hr, hcandidate, hstart, -, -⟩
    obtain ⟨typed', hint', _, hhint', hcandidate', hstart', -⟩ := exists_hint hr
    have hsize : typed.utf8ByteSize = typed'.utf8ByteSize :=
      Nat.add_left_cancel (hstart.trans hstart'.symm)
    rw [(beginning_eq (hcandidate.symm.trans hcandidate') hsize).2]
    exact hhint'

/-- When something is offered, the text to replace has the size of the word in
front of the cursor, and every candidate goes on from that word.  If the word is
typed bare, it is the text to replace.  In general, wherever the place to replace
from is between two characters, all candidates go on from the text behind it
exactly if this text is the word, or differs from it in case alone while all
candidates begin with the word in upper case. -/
theorem complete_extends_word {c : Completer ν α} {front back : String}
    (hsome : (c.complete (front ++ back) front.utf8ByteSize).candidates ≠ []) :
    let r := c.complete (front ++ back) front.utf8ByteSize
    ∃ word, lastTyped? front = some word ∧
      r.start + word.utf8ByteSize = front.utf8ByteSize ∧
      (∀ candidate ∈ r.candidates, extendsWord word candidate = true) ∧
      (EndsBare front → ∃ before, front = before ++ word ∧ before.utf8ByteSize = r.start) ∧
      ∀ before typed, front = before ++ typed → before.utf8ByteSize = r.start →
        ((∀ candidate ∈ r.candidates, extendsWord typed candidate = true) ↔
          typed = word ∨ typed.toUpper = word.toUpper ∧
            ∀ candidate ∈ r.candidates, candidate.startsWith word.toUpper = true) := by
  intro r
  obtain ⟨word, hword, -, hstart, hextends⟩ := exists_word_of_complete hsome
  refine ⟨word, hword, hstart, hextends, fun hbare => ?_, fun before typed hfront hbefore => ?_⟩
  · obtain ⟨before, typed, hfront, htyped⟩ := hbare.lastTyped?
    obtain rfl : typed = word := Option.some.inj (htyped.symm.trans hword)
    have hsize := congrArg String.utf8ByteSize hfront
    rw [String.utf8ByteSize_append, ← hstart] at hsize
    exact ⟨before, hfront, (Nat.add_right_cancel hsize).symm⟩
  · have hsize := congrArg String.utf8ByteSize hfront
    rw [String.utf8ByteSize_append, hbefore, ← hstart] at hsize
    exact forall_extendsWord_iff hsome (Nat.add_left_cancel hsize).symm hextends

/-- A command that takes an address, and two symbols. -/
def breakOnly : Completer Unit Unit where
  commands :=
    { name := ""
      commands := [{ name := "break", parameters := [{ name := addressName, read := fun _ => .ok () }] }] }
  symbols := ["LOOP", "é1"]

/-- A symbol is offered in place of the word before the cursor, not of what is
behind it. -/
theorem complete_extends_word_symbol :
    (breakOnly.complete ("break lo" ++ "op") 8).candidates ≠ [] ∧
      (breakOnly.complete ("break lo" ++ "op") 8).start = 6 ∧
      ∃ before, "break lo" = before ++ "lo" ∧ before.utf8ByteSize = 6 := by
  have hcomplete : breakOnly.complete ("break lo" ++ "op") "break lo".utf8ByteSize =
      ⟨6, ["LOOP"]⟩ := by decide +kernel
  have hsome : (breakOnly.complete ("break lo" ++ "op") "break lo".utf8ByteSize).candidates ≠ [] := by
    rw [hcomplete]
    exact List.cons_ne_nil _ _
  obtain ⟨word, hword, -, -, hbare, -⟩ := complete_extends_word hsome
  have htyped : lastTyped? "break lo" = some "lo" := by decide +kernel
  obtain rfl : "lo" = word := Option.some.inj (htyped.symm.trans hword)
  refine ⟨hsome, congrArg Completion.start hcomplete, ?_⟩
  have hbare := hbare (endsBare_of_simple (List.all_eq_true.mp (by decide)))
  rwa [hcomplete] at hbare

/-- Behind a quote, the size of the word does not lead to where it was typed: the
candidate does not go on from the text that it replaces, and that text may begin
inside of a character. -/
theorem complete_cuts_quotes :
    breakOnly.complete "break \"lo\"" 10 = ⟨8, ["LOOP"]⟩ ∧
      "break \"lo\"" = "break \"l" ++ "o\"" ∧ "break \"l".utf8ByteSize = 8 ∧
      extendsWord "o\"" "LOOP" = false ∧
    breakOnly.complete "break \"é\"" 10 = ⟨8, ["é1"]⟩ ∧
      ¬∃ before typed, "break \"é\"" = before ++ typed ∧ before.utf8ByteSize = 8 := by
  refine ⟨by decide +kernel, by decide, by decide, by decide +kernel, by decide +kernel, ?_⟩
  rintro ⟨before, typed, hline, hsize⟩
  have hdrop := dropBytes?_append before.toList typed.toList
  rw [utf8Size_toList, hsize, ← String.toList_append, ← hline] at hdrop
  have hnone : dropBytes? 8 "break \"é\"".toList = none := by decide +kernel
  rw [hnone] at hdrop
  contradiction

end Completer

end StackRisc.CommandLine
