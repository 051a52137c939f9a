import StackRisc.Proofs.Source.Words
import StackRisc.Proofs.Source.Layout
import StackRisc.Proofs.Text.Literal

/-!
# StackRisc.Proofs.Source.Grammar

The grammar of lines, and that lines are read by it.

* `Statement.LabelForm`, `Statement.DefinitionForm`,
  `Statement.InstructionForm` — the three forms of a line, with the place of
  each word;
* `Statement.labelLine?_eq_some_iff`, `Statement.variableLine?_eq_some_iff`,
  `Statement.instructionLine?_eq_some_iff` — each reader takes the lines of
  its form, with gaps at the end or without;
* `Statement.read?_of_instructionForm` — what is written as an instruction is
  read as that instruction;
* `Statement.read?_grammar` — what cleaned lines are read as.
-/

namespace StackRisc

open Text

namespace Statement

/-! ## Forms -/

/-- A label alone: a name, gaps and a colon. -/
inductive LabelForm : List Char → Lexeme → Prop where
  | intro {name gaps : List Char} : IsName name → IsGaps gaps →
      LabelForm (name ++ (gaps ++ [':'])) ⟨0, String.ofList name⟩

/-- A variable and its value: a name, gaps, an equals sign, gaps and a word. -/
inductive DefinitionForm : List Char → Lexeme → Lexeme → Prop where
  | intro {name gaps gaps' value : List Char} : IsName name → IsGaps gaps → IsGaps gaps' →
      IsToken value →
        DefinitionForm (name ++ (gaps ++ '=' :: (gaps' ++ value))) ⟨0, String.ofList name⟩
          ⟨utf8Size name + utf8Size gaps + 1 + utf8Size gaps', String.ofList value⟩

/-- An instruction: a label, gaps, a colon and gaps, which may be left out, a
name, and words that have gaps in front. -/
inductive InstructionForm : List Char → Option Lexeme → Lexeme → List Lexeme → Prop where
  | bare {mnemonic rest : List Char} {words : List Lexeme} : IsName mnemonic →
      Tokens (utf8Size mnemonic) rest words →
        InstructionForm (mnemonic ++ rest) none ⟨0, String.ofList mnemonic⟩ words
  | labelled {name gaps gaps' mnemonic rest : List Char} {words : List Lexeme} {start : Nat} :
      IsName name → IsGaps gaps → IsGaps gaps' → IsName mnemonic →
        start = utf8Size name + utf8Size gaps + 1 + utf8Size gaps' →
          Tokens (start + utf8Size mnemonic) rest words →
            InstructionForm (name ++ (gaps ++ ':' :: (gaps' ++ (mnemonic ++ rest))))
              (some ⟨0, String.ofList name⟩) ⟨start, String.ofList mnemonic⟩ words

/-- A line starts with a name, gaps and a colon. -/
def StartsWithLabel (line : List Char) : Prop :=
  ∃ name gaps rest, IsName name ∧ IsGaps gaps ∧ line = name ++ (gaps ++ ':' :: rest)

variable {line gaps gaps' rest : List Char} {c c' : Cursor} {name value mnemonic : Lexeme}
  {label : Option Lexeme} {arguments : List Lexeme} {statement : Statement}

/-! ## Readers -/

/-- Gaps are no parts of names. -/
theorem isNameChar_of_isGap {c : Char} (h : isGap c = true) : isNameChar c = false := by
  rw [isGap, Bool.or_eq_true, beq_iff_eq, beq_iff_eq] at h
  rcases h with rfl | rfl
  · exact isNameChar_gap.1
  · exact isNameChar_gap.2

theorem not_isGap_of_isNameChar {ch : Char} (h : isNameChar ch = true) : isGap ch = false := by
  rw [← Bool.not_eq_true]
  intro hgap
  rw [isNameChar_of_isGap hgap] at h
  contradiction

/-- What follows a name and gaps is no part of the name. -/
theorem not_isNameChar_head (hgaps : IsGaps gaps) {ch : Char} (hch : isNameChar ch = false) :
    ∀ x ∈ (gaps ++ ch :: rest).head?, isNameChar x = false := by
  cases gaps with
  | nil =>
      rintro x ⟨⟩
      exact hch
  | cons g gaps =>
      rintro x ⟨⟩
      exact isNameChar_of_isGap (hgaps _ List.mem_cons_self)

/-- A name, gaps and one character are read one after the other. -/
theorem name?_char?_eq_some_iff {ch : Char} (hname : isNameChar ch = false)
    (hgap : isGap ch = false) (hsize : ch.utf8Size = 1) :
    (∃ c₁, c.name? = some (name, c₁) ∧ c₁.skipGaps.char? ch = some c') ↔
      ∃ word gaps rest, IsName word ∧ IsGaps gaps ∧ c.rest = word ++ (gaps ++ ch :: rest) ∧
        name = ⟨c.offset, String.ofList word⟩ ∧
          c' = ⟨c.offset + utf8Size word + utf8Size gaps + 1, rest⟩ := by
  rw [← hsize]
  constructor
  · rintro ⟨c₁, hword, hchar⟩
    obtain ⟨word, after, hne, hchars, -, hsplit, rfl, rfl⟩ := Cursor.word?_eq_some_iff.mp hword
    obtain ⟨gaps, behind, rfl, hgaps, hbehind⟩ := exists_run isGap after
    rw [Cursor.skipGaps, Cursor.skip_append hgaps hbehind] at hchar
    obtain ⟨rest, hrest, rfl⟩ := Cursor.char?_eq_some_iff.mp hchar
    obtain rfl : behind = ch :: rest := hrest
    exact ⟨word, gaps, rest, ⟨hne, hchars⟩, hgaps, hsplit, rfl, rfl⟩
  · obtain ⟨offset, cs⟩ := c
    rintro ⟨word, gaps, rest, ⟨hne, hchars⟩, hgaps, rfl, rfl, rfl⟩
    refine ⟨_, Cursor.word?_append hne hchars (not_isNameChar_head hgaps hname), ?_⟩
    have hhead : ∀ x ∈ (ch :: rest).head?, isGap x = false := by
      rintro x ⟨⟩
      exact hgap
    rw [Cursor.skipGaps, Cursor.skip_append hgaps hhead]
    exact Cursor.char?_eq_some_iff.mpr ⟨rest, rfl, rfl⟩

/-- A label is a name and a colon, with gaps between them. -/
theorem labelDefinition?_eq_some_iff :
    labelDefinition? c = some (name, c') ↔
      ∃ word gaps rest, IsName word ∧ IsGaps gaps ∧ c.rest = word ++ (gaps ++ ':' :: rest) ∧
        name = ⟨c.offset, String.ofList word⟩ ∧
          c' = ⟨c.offset + utf8Size word + utf8Size gaps + 1, rest⟩ := by
  refine Iff.trans ?_ (name?_char?_eq_some_iff (by decide) (by decide) rfl)
  simp only [labelDefinition?, Option.bind_eq_bind, Option.bind_eq_some_iff, Prod.exists,
    Option.pure_def, Option.some.injEq, Prod.mk.injEq]
  constructor
  · rintro ⟨word, c₁, hword, c₂, hchar, rfl, rfl⟩
    exact ⟨c₁, hword, hchar⟩
  · rintro ⟨c₁, hword, hchar⟩
    exact ⟨_, c₁, hword, _, hchar, rfl, rfl⟩

/-- A line is done when only gaps are left. -/
theorem isDone_iff : c.isDone = true ↔ IsGaps c.rest := List.all_eq_true

/-- A label that stands alone is read, with gaps behind it or without. -/
theorem labelLine?_eq_some_iff :
    labelLine? (.ofText line) = some statement ↔
      ∃ front trail, line = front ++ trail ∧ IsGaps trail ∧
        ∃ name, LabelForm front name ∧ statement = .label name := by
  simp only [labelLine?, Option.bind_eq_bind, Option.bind_eq_some_iff, Prod.exists,
    labelDefinition?_eq_some_iff, Option.ite_none_right_eq_some, isDone_iff, Option.some.injEq]
  constructor
  · rintro ⟨name, c', ⟨word, gaps, rest, hword, hgaps, hsplit, rfl, rfl⟩, htrail, rfl⟩
    exact ⟨word ++ (gaps ++ [':']), rest, hsplit.trans (by simp), htrail, _, ⟨hword, hgaps⟩, rfl⟩
  · rintro ⟨_, trail, rfl, htrail, _, ⟨hword, hgaps⟩, rfl⟩
    exact ⟨_, _, ⟨_, _, trail, hword, hgaps, by simp [Cursor.ofText], rfl, rfl⟩, htrail, rfl⟩

/-- The definition of a variable is read, with gaps behind it or without. -/
theorem variableLine?_eq_some_iff :
    variableLine? (.ofText line) = some statement ↔
      ∃ front trail, line = front ++ trail ∧ IsGaps trail ∧
        ∃ name value, DefinitionForm front name value ∧ statement = .definition name value := by
  have hread : variableLine? (.ofText line) = some statement ↔
      ∃ name c₂, (∃ c₁, (Cursor.ofText line).name? = some (name, c₁) ∧
        c₁.skipGaps.char? '=' = some c₂) ∧ ∃ value c₃, c₂.skipGaps.token? = some (value, c₃) ∧
          c₃.isDone = true ∧ statement = .definition name value := by
    simp only [variableLine?, Option.bind_eq_bind, Option.bind_eq_some_iff, Prod.exists,
      Option.ite_none_right_eq_some, Option.some.injEq]
    constructor
    · rintro ⟨name, c₁, hname, c₂, hchar, value, c₃, hvalue, hdone, rfl⟩
      exact ⟨name, c₂, ⟨c₁, hname, hchar⟩, value, c₃, hvalue, hdone, rfl⟩
    · rintro ⟨name, c₂, ⟨c₁, hname, hchar⟩, value, c₃, hvalue, hdone, rfl⟩
      exact ⟨name, c₁, hname, c₂, hchar, value, c₃, hvalue, hdone, rfl⟩
  rw [hread]
  simp only [name?_char?_eq_some_iff (show isNameChar '=' = false by decide) (by decide) rfl]
  constructor
  · rintro ⟨name, c₂, ⟨word, gaps, after, hword, hgaps, hsplit, rfl, rfl⟩, value, c₃, hvalue,
      hdone, rfl⟩
    obtain ⟨gaps', behind, rfl, hgaps', hbehind⟩ := exists_run isGap after
    rw [Cursor.skipGaps, Cursor.skip_append hgaps' hbehind] at hvalue
    obtain ⟨token, trail, hne, htoken, -, rfl, rfl, rfl⟩ := Cursor.word?_eq_some_iff.mp hvalue
    have hvalue : IsToken token := ⟨hne, fun x hx => by simpa using htoken x hx⟩
    have hdefinition := DefinitionForm.intro hword hgaps hgaps' hvalue
    rw [← Nat.zero_add (utf8Size word)] at hdefinition
    exact ⟨_, trail, hsplit.trans (by simp), isDone_iff.mp hdone, _, _, hdefinition, rfl⟩
  · rintro ⟨_, trail, rfl, htrail, _, _,
      @⟨word, gaps, gaps', token, hword, hgaps, hgaps', hne, htoken⟩, rfl⟩
    refine ⟨_, _, ⟨word, gaps, gaps' ++ (token ++ trail), hword, hgaps, by simp [Cursor.ofText],
      rfl, rfl⟩, ?_⟩
    rw [Cursor.skipGaps, Cursor.skip_append hgaps' (forall_mem_head?_append hne htoken)]
    refine ⟨_, _, Cursor.word?_append hne (fun x hx => by simp [htoken x hx])
      (fun x hx => by simp [htrail x (List.mem_of_head? hx)]), isDone_iff.mpr htrail, ?_⟩
    simp [Cursor.ofText]

/-- Read the mnemonic and the arguments of an instruction. -/
def behindLabel? (label : Option Lexeme) (c : Cursor) : Option Statement := do
  let (mnemonic, c) ← c.name?
  match c.rest with
  | [] => some (.instruction label mnemonic [])
  | x :: _ => if isGap x then some (.instruction label mnemonic c.tokens) else none

theorem instructionLine?_eq (c : Cursor) :
    instructionLine? c =
      match labelDefinition? c with
      | some (name, c') => behindLabel? (some name) c'.skipGaps
      | none => behindLabel? none c := by
  rw [instructionLine?, inlineLabel]
  cases labelDefinition? c <;> rfl

/-- Behind a label comes a mnemonic, followed by its operands. -/
theorem behindLabel?_eq_some_iff :
    behindLabel? label c = some statement ↔
      ∃ word front trail words, IsName word ∧ IsGaps trail ∧ c.rest = word ++ (front ++ trail) ∧
        Tokens (c.offset + utf8Size word) front words ∧
          statement = .instruction label ⟨c.offset, String.ofList word⟩ words := by
  constructor
  · intro h
    obtain ⟨⟨mnemonic, c₁⟩, hname, h⟩ := Option.bind_eq_some_iff.mp h
    obtain ⟨word, after, hne, hword, -, hsplit, rfl, rfl⟩ := Cursor.word?_eq_some_iff.mp hname
    have hgap : (∀ x ∈ after.head?, isGap x = true) ∧ statement = .instruction label
        ⟨c.offset, String.ofList word⟩ (Cursor.tokens ⟨c.offset + utf8Size word, after⟩) := by
      cases after with
      | nil =>
          cases h
          exact ⟨fun x hx => (nomatch hx), rfl⟩
      | cons x after =>
          obtain ⟨hx, h⟩ := Option.ite_none_right_eq_some.mp h
          cases h
          refine ⟨fun y hy => ?_, rfl⟩
          cases hy
          exact hx
    obtain ⟨hgap, rfl⟩ := hgap
    obtain ⟨front, trail, words, rfl, htrail, hwords⟩ :=
      exists_tokens (c.offset + utf8Size word) hgap
    refine ⟨word, front, trail, words, ⟨hne, hword⟩, htrail, hsplit, hwords, ?_⟩
    rw [Cursor.tokens, tokensFrom_append_gaps htrail, hwords.eq_tokensFrom]
  · obtain ⟨offset, cs⟩ := c
    rintro ⟨word, front, trail, words, ⟨hne, hword⟩, htrail, rfl, hwords, rfl⟩
    have hgap : ∀ x ∈ (front ++ trail).head?, isGap x = true := by
      cases front with
      | nil => exact fun x hx => htrail x (List.mem_of_head? hx)
      | cons y front => exact hwords.head
    have htokens : Cursor.tokens ⟨offset + utf8Size word, front ++ trail⟩ = words := by
      rw [Cursor.tokens, tokensFrom_append_gaps htrail, hwords.eq_tokensFrom]
    refine Option.bind_eq_some_iff.mpr ⟨_, Cursor.word?_append hne hword
      fun x hx => isNameChar_of_isGap (hgap x hx), ?_⟩
    simp only
    split
    · next hnil =>
      rw [← htokens, hnil]
      rfl
    · next x rest hcons =>
      rw [hcons] at hgap
      rw [if_pos (hgap x rfl), htokens]

/-- No label is read exactly if the line starts with none. -/
theorem labelDefinition?_eq_none_iff :
    labelDefinition? (.ofText line) = none ↔ ¬StartsWithLabel line := by
  rw [Option.eq_none_iff_forall_ne_some]
  constructor
  · rintro h ⟨word, gaps, rest, hword, hgaps, rfl⟩
    exact h _ (labelDefinition?_eq_some_iff.mpr ⟨word, gaps, rest, hword, hgaps, rfl, rfl, rfl⟩)
  · rintro h ⟨name, c'⟩ hlabel
    obtain ⟨word, gaps, rest, hword, hgaps, hsplit, -⟩ := labelDefinition?_eq_some_iff.mp hlabel
    exact h ⟨word, gaps, rest, hword, hgaps, hsplit⟩

/-- An instruction is read, with gaps behind it or without. -/
theorem instructionLine?_eq_some_iff :
    instructionLine? (.ofText line) = some statement ↔
      ∃ front trail, line = front ++ trail ∧ IsGaps trail ∧
        ∃ label mnemonic arguments, InstructionForm front label mnemonic arguments ∧
          (label = none → ¬StartsWithLabel line) ∧
            statement = .instruction label mnemonic arguments := by
  rw [instructionLine?_eq]
  constructor
  · intro h
    cases hlabel : labelDefinition? (.ofText line) with
    | none =>
        rw [hlabel] at h
        obtain ⟨word, front, trail, words, hword, htrail, hsplit, hwords, rfl⟩ :=
          behindLabel?_eq_some_iff.mp h
        rw [Cursor.ofText, Nat.zero_add] at hwords
        exact ⟨word ++ front, trail, hsplit.trans (List.append_assoc ..).symm, htrail, _, _, _,
          .bare hword hwords, fun _ => labelDefinition?_eq_none_iff.mp hlabel, rfl⟩
    | some found =>
        obtain ⟨name, c'⟩ := found
        rw [hlabel] at h
        obtain ⟨label, gaps, after, hname, hgaps, hsplit, rfl, rfl⟩ :=
          labelDefinition?_eq_some_iff.mp hlabel
        obtain ⟨gaps', behind, rfl, hgaps', hbehind⟩ := exists_run isGap after
        simp only [Cursor.skipGaps, Cursor.skip_append hgaps' hbehind] at h
        obtain ⟨word, front, trail, words, hword, htrail, hrest, hwords, rfl⟩ :=
          behindLabel?_eq_some_iff.mp h
        obtain rfl : behind = word ++ (front ++ trail) := hrest
        refine ⟨_, trail, hsplit.trans ?_, htrail, _, _, _,
          .labelled hname hgaps hgaps' hword ?_ hwords, fun hnone => (nomatch hnone), rfl⟩
        · simp
        · rw [Cursor.ofText, Nat.zero_add]
  · rintro ⟨_, trail, rfl, htrail, _, _, words, hform, hfree, rfl⟩
    cases hform with
    | @bare word front _ hword hwords =>
        rw [labelDefinition?_eq_none_iff.mpr (hfree rfl)]
        refine behindLabel?_eq_some_iff.mpr
          ⟨word, front, trail, words, hword, htrail, List.append_assoc .., ?_, rfl⟩
        rwa [Cursor.ofText, Nat.zero_add]
    | @labelled name gaps gaps' mnemonic rest _ _ hname hgaps hgaps' hmnemonic hstart hwords =>
        have hsplit : name ++ (gaps ++ ':' :: (gaps' ++ (mnemonic ++ rest))) ++ trail =
            name ++ (gaps ++ ':' :: (gaps' ++ (mnemonic ++ (rest ++ trail)))) := by
          simp
        have hhead : ∀ x ∈ (mnemonic ++ (rest ++ trail)).head?, isGap x = false :=
          forall_mem_head?_append hmnemonic.1 fun x hx =>
            not_isGap_of_isNameChar (hmnemonic.2 x hx)
        rw [labelDefinition?_eq_some_iff.mpr ⟨name, gaps, _, hname, hgaps, hsplit, rfl, rfl⟩]
        simp only [Cursor.skipGaps, Cursor.skip_append hgaps' hhead]
        refine behindLabel?_eq_some_iff.mpr
          ⟨mnemonic, rest, trail, words, hmnemonic, htrail, rfl, ?_, ?_⟩
        · rwa [Cursor.ofText, Nat.zero_add, ← hstart]
        · rw [Cursor.ofText, Nat.zero_add, ← hstart]

/-! ## Lines -/

/-- A word at the front starts with a character. -/
def FirstStartsWith (ch : Char) (words : List Lexeme) : Prop :=
  ∃ w ∈ words.head?, w.text.toList.head? = some ch

/-- What follows the first name of a line and its gaps is found in one way. -/
theorem mark_unique {name name' gaps gaps' rest rest' : List Char} {ch ch' : Char}
    (hname : IsName name) (hgaps : IsGaps gaps) (hch : isNameChar ch = false ∧ isGap ch = false)
    (hname' : IsName name') (hgaps' : IsGaps gaps')
    (hch' : isNameChar ch' = false ∧ isGap ch' = false)
    (h : name ++ (gaps ++ ch :: rest) = name' ++ (gaps' ++ ch' :: rest')) :
    ch = ch' ∧ rest = rest' := by
  have hmark := (run_unique hname.2 (not_isNameChar_head hgaps hch.1) hname'.2
    (not_isNameChar_head hgaps' hch'.1) h).2
  have hhead {x : Char} {xs : List Char} (hx : isGap x = false) :
      ∀ y ∈ (x :: xs).head?, isGap y = false := by
    rintro y ⟨⟩
    exact hx
  exact List.cons.inj (run_unique hgaps (hhead hch.2) hgaps' (hhead hch'.2) hmark).2

theorem isNameChar_colon : isNameChar ':' = false ∧ isGap ':' = false := by decide

theorem isNameChar_equals : isNameChar '=' = false ∧ isGap '=' = false := by decide

/-- When the first word does not start with a mark, a mark behind the first
name of an instruction is the colon of its label, and its mnemonic follows. -/
theorem InstructionForm.of_marked {trail word : List Char} {ch : Char}
    (h : InstructionForm line label mnemonic arguments) (htrail : IsGaps trail)
    (hfirst : label = none → ¬FirstStartsWith ch arguments) (hword : IsName word)
    (hgaps : IsGaps gaps) (hch : isNameChar ch = false ∧ isGap ch = false)
    (hsplit : line ++ trail = word ++ (gaps ++ ch :: rest)) :
    label ≠ none ∧ ch = ':' ∧ ∃ c ∈ rest, isGap c = false := by
  cases h with
  | @bare mnemonic after _ hmnemonic hwords =>
      rw [List.append_assoc] at hsplit
      have hgap : ∀ x ∈ (after ++ trail).head?, isNameChar x = false := by
        intro x hx
        refine isNameChar_of_isGap ?_
        cases after with
        | nil => exact htrail x (List.mem_of_head? hx)
        | cons y after => exact hwords.head x hx
      have hmark := (run_unique hmnemonic.2 hgap hword.2 (not_isNameChar_head hgaps hch.1) hsplit).2
      exact absurd (hwords.exists_first htrail hgaps hch.2 hmark) (hfirst rfl)
  | @labelled name gaps₁ gaps₂ mnemonic after _ _ hname hgaps₁ hgaps₂ hmnemonic hstart hwords =>
      have hlabel : name ++ (gaps₁ ++ ':' :: (gaps₂ ++ (mnemonic ++ (after ++ trail)))) =
          word ++ (gaps ++ ch :: rest) := by
        rw [← hsplit]
        simp
      obtain ⟨rfl, rfl⟩ := mark_unique hname hgaps₁ isNameChar_colon hword hgaps hch hlabel
      obtain ⟨c, hc⟩ := List.exists_mem_of_ne_nil _ hmnemonic.1
      exact ⟨Option.some_ne_none _, rfl, c, by simp [hc],
        not_isGap_of_isNameChar (hmnemonic.2 c hc)⟩

/-- No line is both a label and a definition. -/
theorem LabelForm.not_definitionForm {n m v : Lexeme} (h : LabelForm line n) :
    ¬DefinitionForm line m v := by
  obtain ⟨hname, hgaps⟩ := h
  intro h'
  generalize hline : _ ++ (_ ++ [':']) = line at h'
  obtain ⟨hname', hgaps', -, -⟩ := h'
  exact absurd (mark_unique hname hgaps isNameChar_colon hname' hgaps' isNameChar_equals hline).1
    (by decide)

/-- The first reader that takes a line reads it. -/
theorem read?_eq_some_iff :
    read? line = some statement ↔
      labelLine? (.ofText line) = some statement ∨ labelLine? (.ofText line) = none ∧
        (variableLine? (.ofText line) = some statement ∨ variableLine? (.ofText line) = none ∧
          instructionLine? (.ofText line) = some statement) := by
  simp only [read?, Option.orElse_eq_orElse, Option.orElse_eq_or, Option.or_eq_some_iff]

/-- What is written as an instruction is read as that instruction. -/
theorem read?_of_instructionForm {trail : List Char}
    (h : InstructionForm line label mnemonic arguments) (htrail : IsGaps trail)
    (hfirst : label = none → ¬FirstStartsWith ':' arguments ∧ ¬FirstStartsWith '=' arguments) :
    read? (line ++ trail) = some (.instruction label mnemonic arguments) := by
  have hlabel : labelLine? (.ofText (line ++ trail)) = none := by
    rw [Option.eq_none_iff_forall_ne_some]
    intro statement hsome
    obtain ⟨_, trail', hsplit, htrail', _, @⟨name, gaps, hname, hgaps⟩, -⟩ :=
      labelLine?_eq_some_iff.mp hsome
    have hmark : line ++ trail = name ++ (gaps ++ ':' :: trail') := hsplit.trans (by simp)
    obtain ⟨-, -, c, hc, hgap⟩ :=
      h.of_marked htrail (fun hnone => (hfirst hnone).1) hname hgaps isNameChar_colon hmark
    rw [htrail' c hc] at hgap
    contradiction
  have hvariable : variableLine? (.ofText (line ++ trail)) = none := by
    rw [Option.eq_none_iff_forall_ne_some]
    intro statement hsome
    obtain ⟨_, trail', hsplit, -, _, _, @⟨name, gaps, gaps', value, hname, hgaps, -, -⟩, -⟩ :=
      variableLine?_eq_some_iff.mp hsome
    have hmark : line ++ trail = name ++ (gaps ++ '=' :: (gaps' ++ (value ++ trail'))) :=
      hsplit.trans (by simp)
    obtain ⟨-, hcolon, -⟩ :=
      h.of_marked htrail (fun hnone => (hfirst hnone).2) hname hgaps isNameChar_equals hmark
    contradiction
  refine read?_eq_some_iff.mpr (.inr ⟨hlabel, .inr ⟨hvariable, ?_⟩⟩)
  refine instructionLine?_eq_some_iff.mpr
    ⟨line, trail, rfl, htrail, label, mnemonic, arguments, h, ?_, rfl⟩
  rintro hnone ⟨name, gaps, rest, hname, hgaps, hsplit⟩
  exact (h.of_marked htrail (fun hnone => (hfirst hnone).1) hname hgaps isNameChar_colon hsplit).1
    hnone

/-- A name alone is an instruction. -/
theorem read?_bare {word : List Char} (hword : IsName word) :
    read? word = some (.instruction none ⟨0, String.ofList word⟩ []) := by
  have hfirst (ch : Char) : ¬FirstStartsWith ch [] := fun ⟨_, hw, _⟩ => nomatch hw
  have hread := read?_of_instructionForm (.bare hword (.nil _))
    (fun _ hc => nomatch List.not_mem_nil hc) fun _ => ⟨hfirst _, hfirst _⟩
  rwa [List.append_nil, List.append_nil] at hread

/-- A name, gaps and a word are an instruction with an operand. -/
theorem read?_operand {word token : List Char} (hword : IsName word) (hne : gaps ≠ [])
    (hgaps : IsGaps gaps) (htoken : IsToken token)
    (hfirst : ∀ c ∈ token.head?, c ≠ ':' ∧ c ≠ '=') :
    ∃ place, read? (word ++ (gaps ++ token)) =
      some (.instruction none ⟨0, String.ofList word⟩ [⟨place, String.ofList token⟩]) := by
  have hmark (ch : Char) (hch : ch ∉ token.head?) :
      ¬FirstStartsWith ch [⟨utf8Size word + utf8Size gaps, String.ofList token⟩] := by
    rintro ⟨_, ⟨⟩, hhead⟩
    rw [String.toList_ofList] at hhead
    exact hch hhead
  have hread := read?_of_instructionForm (.bare hword (.cons hne hgaps htoken (.nil _)))
    (fun _ hc => nomatch List.not_mem_nil hc) fun _ =>
      ⟨hmark ':' fun h => (hfirst _ h).1 rfl, hmark '=' fun h => (hfirst _ h).2 rfl⟩
  rw [List.append_nil, List.append_nil] at hread
  exact ⟨_, hread⟩

/-! ## Lines without gaps at the end -/

/-- A line that does not end with a gap. -/
def Trimmed (line : List Char) : Prop := ∀ c ∈ line.getLast?, isGap c = false

/-- Without gaps at its end, a line has no trail to split off. -/
theorem Trimmed.exists_iff {P : List Char → Prop} (h : Trimmed line) :
    (∃ front trail, line = front ++ trail ∧ IsGaps trail ∧ P front) ↔ P line := by
  constructor
  · rintro ⟨front, trail, rfl, htrail, hfront⟩
    cases hlast : trail.getLast? with
    | none => rwa [List.getLast?_eq_none_iff.mp hlast, List.append_nil]
    | some c =>
        have hgap := h c (by rw [List.getLast?_append, hlast]; rfl)
        rw [htrail c (List.mem_of_getLast? hlast)] at hgap
        contradiction
  · exact fun hline => ⟨line, [], (List.append_nil line).symm, fun _ hc => (nomatch hc), hline⟩

/-- A line is not read as a label exactly if it has not that form. -/
theorem Trimmed.labelLine?_eq_none_iff (h : Trimmed line) :
    labelLine? (.ofText line) = none ↔ ∀ name, ¬LabelForm line name := by
  simp only [Option.eq_none_iff_forall_ne_some, ne_eq, labelLine?_eq_some_iff, h.exists_iff]
  exact ⟨fun hnone name hform => hnone _ ⟨name, hform, rfl⟩,
    fun hnone _ ⟨name, hform, _⟩ => hnone name hform⟩

/-- A line is not read as a definition exactly if it has not that form. -/
theorem Trimmed.variableLine?_eq_none_iff (h : Trimmed line) :
    variableLine? (.ofText line) = none ↔ ∀ name value, ¬DefinitionForm line name value := by
  simp only [Option.eq_none_iff_forall_ne_some, ne_eq, variableLine?_eq_some_iff, h.exists_iff]
  exact ⟨fun hnone name value hform => hnone _ ⟨name, value, hform, rfl⟩,
    fun hnone _ ⟨name, value, hform, _⟩ => hnone name value hform⟩

/-- What a line without gaps at the end is read as. -/
theorem Trimmed.read?_eq_some_iff (h : Trimmed line) :
    read? line = some statement ↔
      (∃ name, LabelForm line name ∧ statement = .label name) ∨
        (∀ name, ¬LabelForm line name) ∧
          ((∃ name value, DefinitionForm line name value ∧ statement = .definition name value) ∨
            (∀ name value, ¬DefinitionForm line name value) ∧
              ∃ label mnemonic arguments, InstructionForm line label mnemonic arguments ∧
                (label = none → ¬StartsWithLabel line) ∧
                  statement = .instruction label mnemonic arguments) := by
  rw [Statement.read?_eq_some_iff, labelLine?_eq_some_iff, h.exists_iff, h.labelLine?_eq_none_iff,
    variableLine?_eq_some_iff, h.exists_iff, h.variableLine?_eq_none_iff,
    instructionLine?_eq_some_iff, h.exists_iff]

/-- A cleaned line does not end with a gap. -/
theorem trimmed_of_mem {source : String} {l : SourceLine} (h : l ∈ SourceLine.ofSource source) :
    Trimmed l.text := by
  intro c hc
  have htext := List.mem_map_of_mem (f := (·.text)) h
  rw [SourceLine.map_text_ofSource] at htext
  obtain ⟨raw, -, hraw⟩ := List.mem_map.mp (List.mem_filter.mp htext).1
  rw [← hraw, SourceLine.cleaned, upper_trim] at hc
  rw [← Bool.not_eq_true]
  intro hgap
  have hblank := isBlank_getLast?_trim _ c hc
  rw [isBlank_of_isGap hgap] at hblank
  contradiction

/-! ## The grammar -/

/-- A line is read by the grammar: a label alone and a definition are read as
such, an instruction if the line is none of them, and no other line is read.
A label that a line starts with belongs to the instruction. -/
structure ReadsByGrammar (line : List Char) : Prop where
  label (name : Lexeme) : read? line = some (.label name) ↔ LabelForm line name
  definition (name value : Lexeme) :
    read? line = some (.definition name value) ↔ DefinitionForm line name value
  instruction (label : Option Lexeme) (mnemonic : Lexeme) (arguments : List Lexeme) :
    read? line = some (.instruction label mnemonic arguments) ↔
      (∀ name, ¬LabelForm line name) ∧ (∀ name value, ¬DefinitionForm line name value) ∧
        InstructionForm line label mnemonic arguments ∧ (label = none → ¬StartsWithLabel line)
  error :
    read? line = none ↔
      (∀ name, ¬LabelForm line name) ∧ (∀ name value, ¬DefinitionForm line name value) ∧
        ∀ label mnemonic arguments, InstructionForm line label mnemonic arguments →
          label = none ∧ StartsWithLabel line

/-- A line that does not end with a gap is read by the grammar. -/
theorem Trimmed.readsByGrammar (h : Trimmed line) : ReadsByGrammar line where
  label name := by
    rw [h.read?_eq_some_iff]
    constructor
    · rintro (⟨_, hform, ⟨⟩⟩ | ⟨-, ⟨_, _, -, ⟨⟩⟩ | ⟨-, _, _, _, -, -, ⟨⟩⟩⟩)
      exact hform
    · exact fun hform => .inl ⟨name, hform, rfl⟩
  definition name value := by
    rw [h.read?_eq_some_iff]
    constructor
    · rintro (⟨_, -, ⟨⟩⟩ | ⟨-, ⟨_, _, hform, ⟨⟩⟩ | ⟨-, _, _, _, -, -, ⟨⟩⟩⟩)
      exact hform
    · exact fun hform => .inr ⟨fun _ hlabel => hlabel.not_definitionForm hform,
        .inl ⟨name, value, hform, rfl⟩⟩
  instruction label mnemonic arguments := by
    rw [h.read?_eq_some_iff]
    constructor
    · rintro (⟨_, -, ⟨⟩⟩ | ⟨hlabel, ⟨_, _, -, ⟨⟩⟩ | ⟨hdefinition, _, _, _, hform, hfree, ⟨⟩⟩⟩)
      exact ⟨hlabel, hdefinition, hform, hfree⟩
    · rintro ⟨hlabel, hdefinition, hform, hfree⟩
      exact .inr ⟨hlabel, .inr ⟨hdefinition, label, mnemonic, arguments, hform, hfree, rfl⟩⟩
  error := by
    rw [Option.eq_none_iff_forall_ne_some]
    simp only [ne_eq, h.read?_eq_some_iff]
    constructor
    · intro hnone
      have hlabel (name : Lexeme) (hform : LabelForm line name) : False :=
        hnone _ (.inl ⟨name, hform, rfl⟩)
      have hdefinition (name value : Lexeme) (hform : DefinitionForm line name value) : False :=
        hnone _ (.inr ⟨hlabel, .inl ⟨name, value, hform, rfl⟩⟩)
      refine ⟨hlabel, hdefinition, fun label mnemonic arguments hform => ?_⟩
      have hfree : ¬(label = none → ¬StartsWithLabel line) := fun hfree => hnone _
        (.inr ⟨hlabel, .inr ⟨hdefinition, label, mnemonic, arguments, hform, hfree, rfl⟩⟩)
      obtain ⟨hbare, hstarts⟩ := Classical.not_imp.mp hfree
      exact ⟨hbare, not_not.mp hstarts⟩
    · rintro ⟨hlabel, hdefinition, hinstruction⟩ statement
        (⟨_, hform, -⟩ | ⟨-, ⟨_, _, hform, -⟩ | ⟨-, _, _, _, hform, hfree, -⟩⟩)
      · exact hlabel _ hform
      · exact hdefinition _ _ hform
      · obtain ⟨hnone, hstarts⟩ := hinstruction _ _ _ hform
        exact hfree hnone hstarts

/-- Cleaned lines are read by the grammar, and an instruction that is written
with any gaps is read back.  Without a label, its first argument must not look
like the colon of a label or like an equals sign. -/
theorem read?_grammar :
    (∀ source, ∀ l ∈ SourceLine.ofSource source, ReadsByGrammar l.text) ∧
      ∀ line trail label mnemonic arguments, InstructionForm line label mnemonic arguments →
        IsGaps trail →
          (label = none → ¬FirstStartsWith ':' arguments ∧ ¬FirstStartsWith '=' arguments) →
            read? (line ++ trail) = some (.instruction label mnemonic arguments) :=
  ⟨fun _ _ h => (trimmed_of_mem h).readsByGrammar,
    fun _ _ _ _ _ => read?_of_instructionForm⟩

/-- A label alone with a comment behind it, and an operand behind a tab. -/
theorem read?_grammar_label_operand :
    LabelForm "LOOP :".toList ⟨0, "LOOP"⟩ ∧
      read? ("X:LDI\t#5".toList ++ [' ']) =
        some (.instruction (some ⟨0, "X"⟩) ⟨2, "LDI"⟩ [⟨6, "#5"⟩]) := by
  have hmem : ⟨1, 2, "LOOP :".toList⟩ ∈ SourceLine.ofSource "  loop : ; again" := by
    decide +kernel
  refine ⟨((read?_grammar.1 _ _ hmem).label _).mp (by decide +kernel), ?_⟩
  have hname : IsName "X".toList := by decide +kernel
  have hmnemonic : IsName "LDI".toList := by decide +kernel
  have hgaps : IsGaps [] := fun _ hc => nomatch hc
  have hwords : Tokens 5 "\t#5".toList [⟨6, "#5"⟩] :=
    @Tokens.cons 5 ['\t'] "#5".toList [] [] (by decide) (by decide) (by decide) (.nil _)
  exact read?_grammar.2 _ [' '] _ _ _ (.labelled hname hgaps hgaps hmnemonic rfl hwords)
    (by decide) (fun hnone => nomatch hnone)

end Statement

end StackRisc
