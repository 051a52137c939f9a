import StackRisc.Source.Statement
import StackRisc.Proofs.Text.Runs

/-!
# StackRisc.Proofs.Source.Words

How the words of a line are found.

* `Text.Tokens` — words with the gaps in front of them;
* `Cursor.word?_eq_some_iff`, `Cursor.char?_eq_some_iff` — what is read at the
  front of a text;
* `Text.Tokens.eq_tokensFrom`, `Text.exists_tokens` — the words that are read
  are those that stand between the gaps.
-/

namespace StackRisc.Text

/-- Nothing but spaces and tabs. -/
def IsGaps (cs : List Char) : Prop := ∀ c ∈ cs, isGap c = true

instance (cs : List Char) : Decidable (IsGaps cs) :=
  decidable_of_iff (cs.all isGap = true) List.all_eq_true

/-- A word without spaces and tabs. -/
def IsToken (cs : List Char) : Prop := cs ≠ [] ∧ ∀ c ∈ cs, isGap c = false

instance (cs : List Char) : Decidable (IsToken cs) :=
  decidable_of_iff (cs ≠ [] ∧ cs.all (!isGap ·) = true)
    (by simp only [IsToken, List.all_eq_true, Bool.not_eq_true'])

/-- Words behind an offset, each of them behind at least one gap. -/
inductive Tokens : (offset : Nat) → List Char → List Lexeme → Prop where
  | nil (offset : Nat) : Tokens offset [] []
  | cons {offset : Nat} {gaps token rest : List Char} {words : List Lexeme} :
      gaps ≠ [] → IsGaps gaps → IsToken token →
        Tokens (offset + utf8Size gaps + utf8Size token) rest words →
          Tokens offset (gaps ++ (token ++ rest))
            (⟨offset + utf8Size gaps, String.ofList token⟩ :: words)

/-! ## Words at the front -/

variable {p : Char → Bool} {front rest : List Char} {offset : Nat} {c c' : Cursor} {w : Lexeme}

namespace Cursor

/-- A word ends at the first character of another kind. -/
theorem word?_append (hne : front ≠ []) (hfront : ∀ x ∈ front, p x = true)
    (hrest : ∀ x ∈ rest.head?, p x = false) :
    word? p ⟨offset, front ++ rest⟩ =
      some (⟨offset, String.ofList front⟩, ⟨offset + utf8Size front, rest⟩) := by
  rw [word?, skip_append hfront hrest, takeWhile_append hfront hrest]
  split
  · contradiction
  · rfl

/-- A word is the longest run of its characters, and not empty. -/
theorem word?_eq_some_iff :
    c.word? p = some (w, c') ↔
      ∃ word rest, word ≠ [] ∧ (∀ x ∈ word, p x = true) ∧ (∀ x ∈ rest.head?, p x = false) ∧
        c.rest = word ++ rest ∧ w = ⟨c.offset, String.ofList word⟩ ∧
          c' = ⟨c.offset + utf8Size word, rest⟩ := by
  obtain ⟨offset, cs⟩ := c
  constructor
  · intro h
    obtain ⟨word, rest, rfl, hword, hrest⟩ := exists_run p cs
    have hne : word ≠ [] := by
      rintro rfl
      rw [word?, takeWhile_append hword hrest] at h
      contradiction
    rw [word?_append hne hword hrest] at h
    cases h
    exact ⟨word, rest, hne, hword, hrest, rfl, rfl, rfl⟩
  · rintro ⟨word, rest, hne, hword, hrest, rfl, rfl, rfl⟩
    exact word?_append hne hword hrest

/-- One given character is passed. -/
theorem char?_eq_some_iff {ch : Char} :
    c.char? ch = some c' ↔ ∃ rest, c.rest = ch :: rest ∧ c' = ⟨c.offset + ch.utf8Size, rest⟩ := by
  obtain ⟨offset, cs⟩ := c
  cases cs with
  | nil => simp [char?]
  | cons x cs =>
      simp only [char?, Option.ite_none_right_eq_some, Option.some.injEq, List.cons.injEq]
      constructor
      · rintro ⟨rfl, rfl⟩
        exact ⟨cs, ⟨rfl, rfl⟩, rfl⟩
      · rintro ⟨rest, ⟨rfl, rfl⟩, rfl⟩
        exact ⟨rfl, rfl⟩

end Cursor

/-! ## Words -/

variable {gaps token run line : List Char} {words : List Lexeme} {start : Nat}

/-- Gaps in front of a word are passed. -/
theorem tokensFrom_gaps_append (hgaps : IsGaps gaps) (hne : gaps ≠ []) (offset start : Nat) :
    tokensFrom offset start [] (gaps ++ rest) =
      tokensFrom (offset + utf8Size gaps) (offset + utf8Size gaps) [] rest := by
  induction gaps generalizing offset start with
  | nil => contradiction
  | cons c gaps ih =>
      obtain ⟨hc, hrest⟩ := List.forall_mem_cons.mp hgaps
      rw [List.cons_append, tokensFrom, utf8Size_cons, ← Nat.add_assoc]
      simp only [hc, if_true, tokensFrom.flush, List.isEmpty_nil]
      cases gaps with
      | nil => rfl
      | cons x gaps => exact ih hrest (List.cons_ne_nil _ _) _ _

/-- The characters of a word are collected. -/
theorem tokensFrom_token_append (htoken : ∀ c ∈ token, isGap c = false) (offset start : Nat)
    (run : List Char) :
    tokensFrom offset start run (token ++ rest) =
      tokensFrom (offset + utf8Size token) start (token.reverse ++ run) rest := by
  induction token generalizing offset run with
  | nil => rfl
  | cons c token ih =>
      obtain ⟨hc, hrest⟩ := List.forall_mem_cons.mp htoken
      rw [List.cons_append, tokensFrom, utf8Size_cons, ← Nat.add_assoc]
      simp only [hc, Bool.false_eq_true, if_false]
      rw [ih hrest, List.reverse_cons, List.append_assoc, List.singleton_append]

/-- A word ends at a gap. -/
theorem tokensFrom_run (hne : run ≠ []) (hrest : ∀ c ∈ rest.head?, isGap c = true) :
    tokensFrom offset start run rest =
      ⟨start, String.ofList run.reverse⟩ :: tokensFrom offset offset [] rest := by
  have hempty : run.isEmpty = false := List.isEmpty_eq_false_iff.mpr hne
  cases rest with
  | nil => simp [tokensFrom, tokensFrom.flush, hempty]
  | cons c rest => simp [tokensFrom, tokensFrom.flush, hempty, hrest c rfl]

/-- Tokens start behind a gap. -/
theorem Tokens.head (h : Tokens offset line words) : ∀ c ∈ line.head?, isGap c = true := by
  cases h with
  | nil => exact fun c hc => nomatch hc
  | cons hne hgaps _ _ => exact forall_mem_head?_append hne hgaps

/-- The first word starts with the first character that is not a gap. -/
theorem Tokens.exists_first {trail : List Char} {ch : Char} (h : Tokens offset line words)
    (htrail : IsGaps trail) (hgaps : IsGaps gaps) (hch : isGap ch = false)
    (hsplit : line ++ trail = gaps ++ ch :: rest) :
    ∃ w ∈ words.head?, w.text.toList.head? = some ch := by
  have hhead : ∀ x ∈ (ch :: rest).head?, isGap x = false := by
    rintro x ⟨⟩
    exact hch
  cases h with
  | nil =>
      have hgap := htrail ch (by rw [← List.nil_append trail, hsplit]; simp)
      rw [hch] at hgap
      contradiction
  | @cons _ gaps' token after _ hne hgaps' htoken _ =>
      rw [List.append_assoc, List.append_assoc] at hsplit
      have hword := (run_unique hgaps' (forall_mem_head?_append htoken.1 htoken.2) hgaps hhead
        hsplit).2
      refine ⟨_, rfl, ?_⟩
      rw [String.toList_ofList]
      cases token with
      | nil => exact absurd rfl htoken.1
      | cons x token => exact congrArg List.head? hword

/-- The words behind gaps are those that are read. -/
theorem Tokens.eq_tokensFrom (h : Tokens offset line words) (start : Nat) :
    tokensFrom offset start [] line = words := by
  induction h generalizing start with
  | nil => rfl
  | @cons offset gaps token rest words hne hgaps htoken hrest ih =>
      rw [tokensFrom_gaps_append hgaps hne, tokensFrom_token_append htoken.2, List.append_nil,
        tokensFrom_run (fun h => htoken.1 (List.reverse_eq_nil_iff.mp h)) hrest.head,
        List.reverse_reverse, ih]

/-- What starts with a gap is words behind gaps, and gaps at the end. -/
theorem exists_tokens (offset : Nat) (h : ∀ c ∈ line.head?, isGap c = true) :
    ∃ front trail words, line = front ++ trail ∧ IsGaps trail ∧ Tokens offset front words := by
  induction hlength : line.length using Nat.strongRecOn generalizing line offset with
  | ind n ih =>
      obtain ⟨gaps, after, rfl, hgaps, hafter⟩ := exists_run isGap line
      obtain ⟨token, rest, rfl, htoken, hrest⟩ := exists_run (fun c => !isGap c) after
      cases token with
      | nil =>
          have hnil : rest = [] := by
            cases rest with
            | nil => rfl
            | cons c rest =>
                have hgap := hrest c rfl
                rw [hafter c rfl] at hgap
                exact absurd hgap (by decide)
          exact ⟨[], gaps, [], by rw [hnil]; simp, hgaps, .nil offset⟩
      | cons c token =>
          have hne : gaps ≠ [] := by
            rintro rfl
            have hgap := h c rfl
            rw [hafter c rfl] at hgap
            exact Bool.false_ne_true hgap
          have hshorter : rest.length < n := by
            rw [← hlength]
            simp only [List.length_append, List.length_cons]
            omega
          obtain ⟨front, trail, words, rfl, htrail, hwords⟩ :=
            ih rest.length hshorter (offset + utf8Size gaps + utf8Size (c :: token))
              (fun x hx => by simpa using hrest x hx) rfl
          have hword : IsToken (c :: token) :=
            ⟨List.cons_ne_nil _ _, fun x hx => by simpa using htoken x hx⟩
          exact ⟨gaps ++ (c :: token ++ front), trail, _, by simp, htrail,
            .cons hne hgaps hword hwords⟩

/-- Gaps alone are no words. -/
theorem tokensFrom_gaps_eq_nil (hgaps : IsGaps gaps) (offset start : Nat) :
    tokensFrom offset start [] gaps = [] := by
  cases gaps with
  | nil => rfl
  | cons c gaps =>
      rw [← List.append_nil (c :: gaps), tokensFrom_gaps_append hgaps (List.cons_ne_nil _ _)]
      rfl

/-- Gaps at the end are not read. -/
theorem tokensFrom_append_gaps (hgaps : IsGaps gaps) (offset start : Nat) (run : List Char) :
    tokensFrom offset start run (line ++ gaps) = tokensFrom offset start run line := by
  induction line generalizing offset start run with
  | nil =>
      cases gaps with
      | nil => rfl
      | cons c gaps =>
          obtain ⟨hc, hrest⟩ := List.forall_mem_cons.mp hgaps
          rw [List.nil_append, tokensFrom, tokensFrom]
          simp only [hc, if_true, tokensFrom_gaps_eq_nil hrest]
  | cons c line ih =>
      rw [List.cons_append, tokensFrom, tokensFrom]
      simp only [ih]

end StackRisc.Text
