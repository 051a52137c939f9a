import StackRisc.Source.Statement
import StackRisc.Proofs.Text.Blank

/-!
# StackRisc.Proofs.Source.Places

Where lines and words stand in a source.  Cleaning and reading pass over
characters from left to right and count their bytes, so what they keep is a
part of the text behind that many bytes:

* `SourceLine.shows_of_mem` — a cleaned line is what the source shows at its
  place, but for the case of ASCII letters;
* `Statement.sits_of_read?` — each word of a line stands where it says;
* `SourceLine.shows_spanOf` — so the stretch of a word shows that word.
-/

namespace StackRisc

open Text

/-! ## Sizes -/

namespace Text

theorem utf8ByteSize_ofList (cs : List Char) :
    (String.ofList cs).utf8ByteSize = utf8Size cs := by
  induction cs with
  | nil => rfl
  | cons c cs ih =>
      have hsplit : String.ofList (c :: cs) = String.singleton c ++ String.ofList cs := by
        rw [String.singleton_eq_ofList, ← String.ofList_append, List.singleton_append]
      rw [hsplit, String.utf8ByteSize_append, String.utf8ByteSize_singleton, ih, utf8Size_cons]

theorem utf8Size_toList (s : String) : utf8Size s.toList = s.utf8ByteSize := by
  rw [← utf8ByteSize_ofList, String.ofList_toList]

/-! ## Words of a text -/

/-- A part of a text stands behind some bytes. -/
def Sits (text : List Char) (start : Nat) (part : List Char) : Prop :=
  ∃ before after, text = before ++ part ++ after ∧ utf8Size before = start

namespace Cursor

variable {text : List Char} {c c' : Cursor} {p : Char → Bool} {w : Lexeme}

/-- A cursor is in a text: what it counts and what it holds make up the text. -/
def In (text : List Char) (c : Cursor) : Prop :=
  ∃ before, text = before ++ c.rest ∧ utf8Size before = c.offset

/-- A cursor starts in its text. -/
theorem in_ofText (text : List Char) : (ofText text).In text := ⟨[], rfl, rfl⟩

/-- Passing a run stays in the text. -/
theorem In.skip (h : c.In text) (p : Char → Bool) : (c.skip p).In text := by
  obtain ⟨before, htext, hsize⟩ := h
  refine ⟨before ++ c.rest.takeWhile p, ?_, ?_⟩
  · rw [List.append_assoc, Cursor.skip, List.takeWhile_append_dropWhile, htext]
  · rw [utf8Size_append, hsize]
    rfl

/-- Passing a character stays in the text. -/
theorem In.char? (h : c.In text) {ch : Char} (hc : c.char? ch = some c') : c'.In text := by
  obtain ⟨offset, rest⟩ := c
  obtain ⟨before, htext, hsize⟩ := h
  cases rest with
  | nil => contradiction
  | cons x rest =>
      obtain ⟨rfl, hc⟩ := (Option.ite_none_right_eq_some).mp hc
      cases hc
      refine ⟨before ++ [x], by simpa using htext, ?_⟩
      rw [utf8Size_append, hsize, utf8Size_cons, utf8Size_nil, Nat.add_zero]

/-- A word that is read sits where it starts. -/
theorem In.word? (h : c.In text) (hw : c.word? p = some (w, c')) :
    Sits text w.start w.text.toList ∧ c'.In text := by
  have hnext := h.skip p
  obtain ⟨before, htext, hsize⟩ := h
  unfold Cursor.word? at hw
  split at hw
  · contradiction
  · cases hw
    refine ⟨⟨before, c.rest.dropWhile p, ?_, hsize⟩, hnext⟩
    rw [String.toList_ofList, List.append_assoc, List.takeWhile_append_dropWhile, htext]

end Cursor

variable {text before run rest : List Char} {offset start : Nat} {w : Lexeme}

/-- The word that was being read, or one of the others. -/
theorem sits_or_mem_of_flush {others : List Lexeme}
    (htext : text = before ++ run.reverse ++ rest) (hstart : utf8Size before = start)
    (hw : w ∈ tokensFrom.flush start run others) :
    Sits text w.start w.text.toList ∨ w ∈ others := by
  unfold tokensFrom.flush at hw
  split at hw
  · exact .inr hw
  · rcases List.mem_cons.mp hw with rfl | hw
    · exact .inl ⟨before, rest, by rw [String.toList_ofList, htext], hstart⟩
    · exact .inr hw

/-- The words between gaps stand where they say. -/
theorem sits_of_mem_tokensFrom (htext : text = before ++ run.reverse ++ rest)
    (hstart : utf8Size before = start) (hoffset : utf8Size (before ++ run.reverse) = offset)
    (hw : w ∈ tokensFrom offset start run rest) : Sits text w.start w.text.toList := by
  induction rest generalizing before run offset start with
  | nil => exact (sits_or_mem_of_flush htext hstart hw).resolve_right List.not_mem_nil
  | cons c rest ih =>
      have hnext : utf8Size (before ++ run.reverse ++ [c]) = offset + c.utf8Size := by
        rw [utf8Size_append, hoffset]
        rfl
      unfold tokensFrom at hw
      split at hw
      · rcases sits_or_mem_of_flush htext hstart hw with h | hw
        · exact h
        · have hgap : text = before ++ run.reverse ++ [c] ++ [].reverse ++ rest := by
            simp [htext]
          exact ih hgap hnext (by rw [List.reverse_nil, List.append_nil, hnext]) hw
      · have hlonger : text = before ++ (c :: run).reverse ++ rest := by
          simp [htext]
        exact ih hlonger hstart (by rw [List.reverse_cons, ← List.append_assoc, hnext]) hw

/-- So does every token. -/
theorem Cursor.In.sits_of_mem_tokens {c : Cursor} (h : c.In text) (hw : w ∈ c.tokens) :
    Sits text w.start w.text.toList := by
  obtain ⟨before, htext, hsize⟩ := h
  have hstart : text = before ++ [].reverse ++ c.rest := by
    simpa using htext
  exact sits_of_mem_tokensFrom hstart hsize (by simpa using hsize) hw

end Text

/-! ## Words of a statement -/

namespace Statement

/-- The words of a statement. -/
def words : Statement → List Lexeme
  | .label name => [name]
  | .definition name value => [name, value]
  | .instruction mark mnemonic arguments => mark.toList ++ mnemonic :: arguments

variable {text : List Char} {c c' : Cursor} {statement : Statement} {w : Lexeme}

/-- So does a label. -/
theorem In.labelDefinition? (h : c.In text) (hl : labelDefinition? c = some (w, c')) :
    Sits text w.start w.text.toList ∧ c'.In text := by
  simp only [Statement.labelDefinition?, Option.bind_eq_bind, Option.bind_eq_some_iff,
    Prod.exists, Option.pure_def, Option.some.injEq, Prod.mk.injEq] at hl
  obtain ⟨name, c₁, hname, c₂, hcolon, rfl, rfl⟩ := hl
  obtain ⟨hsits, h₁⟩ := h.word? hname
  exact ⟨hsits, (h₁.skip isGap).char? hcolon⟩

/-- The words of a label line sit where they start. -/
theorem sits_of_labelLine? (h : c.In text) (hs : labelLine? c = some statement)
    (hw : w ∈ statement.words) : Sits text w.start w.text.toList := by
  simp only [labelLine?, Option.bind_eq_bind, Option.bind_eq_some_iff, Prod.exists,
    Option.ite_none_right_eq_some, Option.some.injEq] at hs
  obtain ⟨name, c₁, hname, -, rfl⟩ := hs
  obtain rfl := List.mem_singleton.mp hw
  exact (In.labelDefinition? h hname).1

/-- So do those of a definition. -/
theorem sits_of_variableLine? (h : c.In text) (hs : variableLine? c = some statement)
    (hw : w ∈ statement.words) : Sits text w.start w.text.toList := by
  simp only [variableLine?, Option.bind_eq_bind, Option.bind_eq_some_iff, Prod.exists,
    Option.ite_none_right_eq_some, Option.some.injEq] at hs
  obtain ⟨name, c₁, hname, c₂, hequals, value, c₃, hvalue, -, rfl⟩ := hs
  obtain ⟨hsits, h₁⟩ := h.word? hname
  have h₂ := ((h₁.skip isGap).char? hequals).skip isGap
  rcases List.mem_cons.mp hw with rfl | hw
  · exact hsits
  · obtain rfl := List.mem_singleton.mp hw
    exact (h₂.word? hvalue).1

/-- So do those of an instruction. -/
theorem sits_of_instructionLine? (h : c.In text) (hs : instructionLine? c = some statement)
    (hw : w ∈ statement.words) : Sits text w.start w.text.toList := by
  have hstart : (inlineLabel c).2.In text ∧
      ∀ name ∈ (inlineLabel c).1, Sits text name.start name.text.toList := by
    unfold inlineLabel
    split
    · next hname =>
      obtain ⟨hsits, h₁⟩ := In.labelDefinition? h hname
      refine ⟨h₁.skip isGap, ?_⟩
      rintro _ ⟨⟩
      exact hsits
    · exact ⟨h, fun _ hn => absurd hn (by simp)⟩
  obtain ⟨h₁, hlabel⟩ := hstart
  simp only [instructionLine?, Option.bind_eq_bind, Option.bind_eq_some_iff, Prod.exists] at hs
  obtain ⟨mnemonic, c₂, hmnemonic, hs⟩ := hs
  obtain ⟨hsits, h₂⟩ := h₁.word? hmnemonic
  have hwords {arguments : List Lexeme} (harguments : ∀ x ∈ arguments, x ∈ c₂.tokens)
      (hw : w ∈ (inlineLabel c).1.toList ++ mnemonic :: arguments) :
      Sits text w.start w.text.toList := by
    rcases List.mem_append.mp hw with hw | hw
    · exact hlabel w (Option.mem_toList.mp hw)
    · rcases List.mem_cons.mp hw with rfl | hw
      · exact hsits
      · exact h₂.sits_of_mem_tokens (harguments w hw)
  split at hs
  · cases hs
    exact hwords (fun _ hx => absurd hx List.not_mem_nil) hw
  · obtain ⟨-, hs⟩ := Option.ite_none_right_eq_some.mp hs
    cases hs
    exact hwords (fun _ hx => hx) hw

/-- Each word of a line stands where it says. -/
theorem sits_of_read? (h : read? text = some statement) (hw : w ∈ statement.words) :
    Sits text w.start w.text.toList := by
  have hin := Cursor.in_ofText text
  simp only [read?, Option.orElse_eq_orElse, Option.orElse_eq_or, Option.or_eq_some_iff] at h
  rcases h with h | ⟨-, h | ⟨-, h⟩⟩
  · exact sits_of_labelLine? hin h hw
  · exact sits_of_variableLine? hin h hw
  · exact sits_of_instructionLine? hin h hw

end Statement

/-! ## Lines of a source -/

namespace Text

variable {separator : Char} {cs piece : List Char}

/-- The pieces of a text with the separator between them are the text. -/
theorem intercalate_pieces (separator : Char) (cs : List Char) :
    [separator].intercalate (pieces separator cs) = cs := by
  induction cs with
  | nil => rfl
  | cons c cs ih =>
      cases hrest : pieces separator cs with
      | nil => exact absurd hrest (pieces_ne_nil separator cs)
      | cons piece rest =>
          rw [hrest] at ih
          rw [pieces, hrest]
          split
          · next heq => rw [List.intercalate_cons_cons, ih, heq]; rfl
          · cases rest with
            | nil => rw [← ih]; simp
            | cons next rest =>
                rw [← ih]
                simp only [List.intercalate_cons_cons, List.cons_append]

/-- No piece of a text holds the separator. -/
theorem not_mem_of_mem_pieces (h : piece ∈ pieces separator cs) : separator ∉ piece := by
  induction cs generalizing piece with
  | nil =>
      obtain rfl := List.mem_singleton.mp h
      exact List.not_mem_nil
  | cons c cs ih =>
      rw [pieces] at h
      split at h
      · rcases List.mem_cons.mp h with rfl | h
        · exact List.not_mem_nil
        · exact ih h
      · next hne =>
        cases hrest : pieces separator cs with
        | nil => exact absurd hrest (pieces_ne_nil separator cs)
        | cons first rest =>
            rw [hrest] at h ih
            rcases List.mem_cons.mp h with rfl | h
            · rw [List.mem_cons, not_or]
              exact ⟨Ne.symm hne, ih List.mem_cons_self⟩
            · exact ih (List.mem_cons_of_mem _ h)

end Text

/-- A stretch of a source shows a text, but for the case of ASCII letters.  It
starts and ends between characters, and it is on one line. -/
def Shows (source : List Char) (line : Nat) (span : Span) (text : List Char) : Prop :=
  ∃ before middle after, source = before ++ middle ++ after ∧ utf8Size before = span.start ∧
    utf8Size middle = span.length ∧ upper middle = text ∧ '\n' ∉ middle ∧
      before.count '\n' + 1 = line

namespace SourceLine

variable {source before after raw : List Char} {number offset : Nat} {l : SourceLine} {w : Lexeme}

/-- What is left of a line is what the source shows there. -/
theorem shows_of_clean? (hsource : source = before ++ raw ++ after) (hraw : '\n' ∉ raw)
    (hoffset : utf8Size before = offset) (hnumber : before.count '\n' + 1 = number)
    (hl : clean? number offset raw = some l) : Shows source l.number l.span l.text := by
  obtain ⟨-, hl⟩ := Option.ite_none_left_eq_some.mp hl
  cases hl
  obtain ⟨trail, -, htrail⟩ := exists_trim (code raw)
  obtain ⟨comment, hcomment⟩ : ∃ comment, raw = code raw ++ comment :=
    ⟨raw.dropWhile (· ≠ ';'), (List.takeWhile_append_dropWhile).symm⟩
  generalize (code raw).takeWhile isBlank = lead at *
  generalize trim (code raw) = text at *
  have hsplit : raw = lead ++ text ++ trail ++ comment := by
    rw [← htrail]
    exact hcomment
  rw [hsplit] at hraw
  simp only [List.mem_append, not_or] at hraw
  obtain ⟨⟨⟨hlead, htext⟩, -⟩, -⟩ := hraw
  refine ⟨before ++ lead, text, trail ++ comment ++ after, ?_, ?_, ?_, rfl, htext, ?_⟩
  · rw [hsource, hsplit]
    simp
  · rw [utf8Size_append, hoffset]
    rfl
  · exact (utf8Size_upper text).symm
  · rw [List.count_append, List.count_eq_zero_of_not_mem hlead, Nat.add_zero, hnumber]

/-- Cleaned lines are what the source shows where they were, from a line on. -/
theorem shows_of_mem_cleanAll {raws : List (List Char)} (hraws : ∀ raw ∈ raws, '\n' ∉ raw)
    (hsource : source = before ++ ['\n'].intercalate raws) (hoffset : utf8Size before = offset)
    (hnumber : before.count '\n' + 1 = number) (hl : l ∈ cleanAll number offset raws) :
    Shows source l.number l.span l.text := by
  induction raws generalizing before number offset with
  | nil => contradiction
  | cons raw raws ih =>
      obtain ⟨hraw, hrest⟩ := List.forall_mem_cons.mp hraws
      obtain ⟨after, hafter⟩ : ∃ after, ['\n'].intercalate (raw :: raws) = raw ++ after := by
        cases raws with
        | nil => exact ⟨[], by simp⟩
        | cons next raws => exact ⟨_, by rw [List.intercalate_cons_cons, List.append_assoc]⟩
      rcases List.mem_append.mp hl with hl | hl
      · have hline : source = before ++ raw ++ after := by
          rw [hsource, hafter, List.append_assoc]
        exact shows_of_clean? hline hraw hoffset hnumber (Option.mem_toList.mp hl)
      · cases raws with
        | nil => contradiction
        | cons next raws =>
            have hnext : source =
                before ++ raw ++ ['\n'] ++ ['\n'].intercalate (next :: raws) := by
              rw [hsource, List.intercalate_cons_cons]
              simp
            refine ih hrest hnext ?_ ?_ hl
            · rw [utf8Size_append, utf8Size_append, hoffset]
              rfl
            · rw [List.count_append, List.count_append, List.count_eq_zero_of_not_mem hraw,
                hnumber.symm]
              rfl

/-- A cleaned line of a source is what the source shows at its place. -/
theorem shows_of_mem {source : String} (h : l ∈ ofSource source) :
    Shows source.toList l.number l.span l.text := by
  have hlines : source.toList = [] ++ ['\n'].intercalate (pieces '\n' source.toList) :=
    (intercalate_pieces '\n' source.toList).symm
  exact shows_of_mem_cleanAll (fun _ => not_mem_of_mem_pieces) hlines rfl rfl h

/-- A word that stands in a cleaned line is shown by its stretch. -/
theorem shows_spanOf (h : Shows source number l.span l.text)
    (hw : Sits l.text w.start w.text.toList) :
    Shows source number (l.spanOf w) w.text.toList := by
  obtain ⟨before, middle, after, hsource, hstart, -, htext, hline, hnumber⟩ := h
  obtain ⟨front, rest, hsplit, hsize⟩ := hw
  obtain ⟨m, m₃, rfl, hm, -⟩ := List.map_eq_append_iff.mp (htext.trans hsplit)
  obtain ⟨m₁, m₂, rfl, hm₁, hm₂⟩ := List.map_eq_append_iff.mp hm
  simp only [List.mem_append, not_or] at hline
  refine ⟨before ++ m₁, m₂, m₃ ++ after, by rw [hsource]; simp, ?_, ?_, hm₂, hline.1.2, ?_⟩
  · rw [utf8Size_append, hstart, ← utf8Size_upper m₁, show upper m₁ = front from hm₁, hsize]
    rfl
  · rw [← utf8Size_upper m₂, show upper m₂ = w.text.toList from hm₂, utf8Size_toList]
    rfl
  · rw [List.count_append, List.count_eq_zero_of_not_mem hline.1.1, Nat.add_zero, hnumber]

end SourceLine

end StackRisc
