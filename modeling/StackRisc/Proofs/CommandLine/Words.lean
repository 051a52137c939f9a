import StackRisc.CommandLine.Parse
import StackRisc.CommandLine.Words

/-!
# StackRisc.Proofs.CommandLine.Words

From a line to its words, and from words to commands.  A word is read as it
is written if it needs no quotes; between single quotes every word is; and a
`#` in front of a word hides it, with all that follows:

* `words?_bare`, `words?_quoted`, `words?_comment` — the words of a line that
  is a command and one more word;
* `CommandTree.parseFrom_parameter` — a word as the value of a parameter.
-/

namespace StackRisc.CommandLine

variable {cs rest word : List Char} {name text : String} {c : Char}

/-! ## Steps of the reader -/

section

variable (word rest : List Char) (c : Char)

theorem wordsFrom_plain_nil : wordsFrom (.plain word) [] = some [wordOf word] := rfl

theorem wordsFrom_plain_space :
    wordsFrom (.plain word) (' ' :: rest) = (wordsFrom .between rest).map (wordOf word :: ·) := rfl

theorem wordsFrom_between_quote :
    wordsFrom .between ('\'' :: rest) = wordsFrom (.single []) rest := rfl

theorem wordsFrom_between_hash : wordsFrom .between ('#' :: rest) = wordsFrom .comment rest := rfl

theorem wordsFrom_single_cons :
    wordsFrom (.single word) (c :: rest) =
      if c = '\'' then wordsFrom (.plain word) rest else wordsFrom (.single (c :: word)) rest := rfl

theorem wordsFrom_comment_cons :
    wordsFrom .comment (c :: rest) =
      wordsFrom (if c = '\n' then .between else .comment) rest := rfl

end

/-! ## Bare words -/

/-- A character that stands for itself inside a word. -/
def isOrdinary (c : Char) : Bool := !isSeparator c && c != '\'' && c != '"' && c != '\\'

/-- A word that needs no quotes. -/
structure IsBare (cs : List Char) : Prop where
  ne_nil : cs ≠ []
  start : cs.head? ≠ some '#'
  ordinary : ∀ c ∈ cs, isOrdinary c = true

theorem wordsFrom_plain_cons (hc : isOrdinary c = true) :
    wordsFrom (.plain word) (c :: rest) = wordsFrom (.plain (c :: word)) rest := by
  simp only [isOrdinary, Bool.and_eq_true, Bool.not_eq_true', bne_iff_ne] at hc
  obtain ⟨⟨⟨hseparator, hsingle⟩, hdouble⟩, hbackslash⟩ := hc
  rw [wordsFrom, hseparator, if_neg Bool.false_ne_true]
  -- What is left says that `c` is none of the characters with an equation of their own.
  all_goals intros; contradiction

theorem wordsFrom_between_cons (hc : isOrdinary c = true) (hstart : c ≠ '#') :
    wordsFrom .between (c :: rest) = wordsFrom (.plain [c]) rest := by
  simp only [isOrdinary, Bool.and_eq_true, Bool.not_eq_true', bne_iff_ne] at hc
  obtain ⟨⟨⟨hseparator, hsingle⟩, hdouble⟩, hbackslash⟩ := hc
  rw [wordsFrom, hseparator, if_neg Bool.false_ne_true]
  all_goals intros; contradiction

/-- Ordinary characters are added to a word. -/
theorem wordsFrom_plain_append (h : ∀ c ∈ cs, isOrdinary c = true) :
    wordsFrom (.plain word) (cs ++ rest) = wordsFrom (.plain (cs.reverse ++ word)) rest := by
  induction cs generalizing word with
  | nil => rfl
  | cons c cs ih =>
      obtain ⟨hc, hcs⟩ := List.forall_mem_cons.mp h
      rw [List.cons_append, wordsFrom_plain_cons hc, ih hcs, List.reverse_cons, List.append_assoc]
      rfl

/-- A bare word starts with its first character. -/
theorem wordsFrom_bare_append (h : IsBare cs) (rest : List Char) :
    wordsFrom .between (cs ++ rest) = wordsFrom (.plain cs.reverse) rest := by
  obtain ⟨hne, hstart, hordinary⟩ := h
  cases cs with
  | nil => contradiction
  | cons c cs =>
      obtain ⟨hc, hcs⟩ := List.forall_mem_cons.mp hordinary
      have hne : c ≠ '#' := fun heq => hstart (congrArg some heq)
      rw [List.cons_append, wordsFrom_between_cons hc hne, wordsFrom_plain_append hcs,
        List.reverse_cons]

theorem wordOf_reverse (cs : List Char) : wordOf cs.reverse = String.ofList cs := by
  rw [wordOf, List.reverse_reverse]

/-- A bare word alone is read as it is. -/
theorem wordsFrom_bare (h : IsBare cs) : wordsFrom .between cs = some [String.ofList cs] := by
  have hwords := wordsFrom_bare_append h []
  rwa [List.append_nil, wordsFrom_plain_nil, wordOf_reverse] at hwords

/-- A bare word in front of a space is the first word of a line. -/
theorem words?_bare_cons (h : IsBare name.toList) (line : String) :
    words? (name ++ " " ++ line) = (words? line).map (name :: ·) := by
  have hline : (name ++ " " ++ line).toList = name.toList ++ ' ' :: line.toList := by simp
  rw [words?, hline, wordsFrom_bare_append h, wordsFrom_plain_space, wordOf_reverse,
    String.ofList_toList, words?]

/-! ## Quotes and comments -/

/-- What stands in single quotes is added to a word. -/
theorem wordsFrom_single_append (h : '\'' ∉ cs) :
    wordsFrom (.single word) (cs ++ '\'' :: rest) =
      wordsFrom (.plain (cs.reverse ++ word)) rest := by
  induction cs generalizing word with
  | nil => rfl
  | cons c cs ih =>
      have hc : c ≠ '\'' := (List.ne_of_not_mem_cons h).symm
      rw [List.cons_append, wordsFrom_single_cons, if_neg hc, ih (List.not_mem_of_not_mem_cons h),
        List.reverse_cons, List.append_assoc]
      rfl

/-- A comment runs to the end of its line. -/
theorem wordsFrom_comment (h : '\n' ∉ cs) : wordsFrom .comment cs = some [] := by
  induction cs with
  | nil => rfl
  | cons c cs ih =>
      have hc : c ≠ '\n' := (List.ne_of_not_mem_cons h).symm
      rw [wordsFrom_comment_cons, if_neg hc, ih (List.not_mem_of_not_mem_cons h)]

section

variable (hname : IsBare name.toList)

include hname

/-- A bare word behind a command is the word of the command. -/
theorem words?_bare (h : IsBare text.toList) :
    words? (name ++ " " ++ text) = some [name, text] := by
  rw [words?_bare_cons hname, words?, wordsFrom_bare h, String.ofList_toList]
  rfl

/-- A word between single quotes is read as it is. -/
theorem words?_quoted (h : '\'' ∉ text.toList) :
    words? (name ++ " " ++ ("'" ++ text ++ "'")) = some [name, text] := by
  have hline : ("'" ++ text ++ "'").toList = '\'' :: (text.toList ++ ['\'']) := by simp
  rw [words?_bare_cons hname, words?, hline, wordsFrom_between_quote, wordsFrom_single_append h,
    wordsFrom_plain_nil, List.append_nil, wordOf_reverse, String.ofList_toList]
  rfl

/-- A `#` behind a command hides the rest of the line. -/
theorem words?_comment (hstart : text.toList.head? = some '#') (h : '\n' ∉ text.toList) :
    words? (name ++ " " ++ text) = some [name] := by
  rw [words?_bare_cons hname, words?]
  cases hcs : text.toList with
  | nil =>
      rw [hcs] at hstart
      contradiction
  | cons c cs =>
      rw [hcs] at hstart h
      obtain rfl := Option.some.inj hstart
      rw [wordsFrom_between_hash, wordsFrom_comment fun hmem => h (List.mem_cons_of_mem _ hmem)]
      rfl

end

/-! ## Commands -/

namespace CommandTree

variable {ν α : Type} {t sub : CommandTree ν α} {word : String}

/-- A word that is short for nothing but itself chooses what it names. -/
theorem abbreviated?_eq_choose?
    (h : ∀ c ∈ t.choices, c.1.any (·.startsWith word) = c.1.contains word) :
    t.abbreviated? word = t.choose? word := by
  unfold abbreviated?
  split
  · next c hc =>
    rw [List.filter_congr h] at hc
    rw [choose?, ← List.head?_filter, hc]
    rfl
  · rfl

/-- The first word of a line chooses a command. -/
theorem parse_command {words : List String}
    (h : t.lookup? true word = some (.command sub)) :
    t.parse true (word :: words) = parseFrom true sub {} words := by
  rw [parse, parseFrom]
  simp [Progress.waiting?, h]

/-- A word behind a command is the value of its first parameter. -/
theorem parseFrom_parameter {p : Parameter ν} {abbreviate : Bool} (hcommands : t.commands = [])
    (hparameter : t.parameters[0]? = some p) (hplain : shapeOf word = .plain) :
    parseFrom abbreviate t {} [word] =
      t.finish { pending := some (.parameter p word), position := 1 } := by
  have hnone : t.lookup? abbreviate word = none := by
    simp [lookup?, abbreviated?, choose?, choices, hcommands]
  simp [parseFrom, Progress.waiting?, hnone, hplain, takeWord, takeValue, hparameter,
    Progress.begin, Progress.settle, bind, Except.bind, pure, Except.pure]

end CommandTree

end StackRisc.CommandLine
