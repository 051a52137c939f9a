import StackRisc.Json.Value
import StackRisc.Proofs.Text.Digits
import StackRisc.Proofs.Text.Runs

/-!
# StackRisc.Proofs.Json.Reading

What is written as JSON is read back, whatever follows it in the text:

* `Json.string_encodeText` — a text, from its literal;
* `Json.number_toDigits` — a number, from its digits;
* `Json.integer_toString` — an integer between bounds;
* `Json.nextKey?_first`, `Json.nextKey?_later`, `Json.nextKey?_end` — the keys
  of an object, with white space in front of them.
-/

namespace StackRisc.Json

open Text

variable {α β : Type}

/-! ## What a reader leaves -/

/-- A reader succeeds with a value and leaves a text to be read.  How many
bytes were read only matters for refusals. -/
def Leaves (x : Except Failure (α × Cursor)) (a : α) (rest : List Char) : Prop :=
  ∃ offset, x = .ok (a, ⟨offset, rest⟩)

theorem leaves_ok (a : α) (offset : Nat) (rest : List Char) :
    Leaves (.ok (a, ⟨offset, rest⟩)) a rest :=
  ⟨offset, rfl⟩

/-- One reader goes on where another has stopped. -/
theorem Leaves.bind {x : Except Failure (α × Cursor)} {f : α × Cursor → Except Failure (β × Cursor)}
    {a : α} {b : β} {rest rest' : List Char} (h : Leaves x a rest)
    (hf : ∀ offset, Leaves (f (a, ⟨offset, rest⟩)) b rest') : Leaves (x >>= f) b rest' := by
  obtain ⟨offset, rfl⟩ := h
  exact hf offset

/-! ## String literals -/

/-- The three ways in which a character is written. -/
theorem encodeChar_cases (c : Char) :
    (∃ x, encodeChar c = ['\\', x] ∧ x ≠ 'u' ∧ simpleEscape? x = some c) ∨
      (c.toNat < 0x20 ∧ encodeChar c =
        ['\\', 'u', '0', '0', (c.toNat / 16).digitChar, (c.toNat % 16).digitChar]) ∨
      (0x20 ≤ c.toNat ∧ c ≠ '"' ∧ c ≠ '\\' ∧ encodeChar c = [c]) := by
  unfold encodeChar
  repeat' split
  any_goals
    subst_vars
    exact .inl ⟨_, rfl, by decide, rfl⟩
  · next hcontrol => exact .inr (.inl ⟨hcontrol, rfl⟩)
  · next hquote hbackslash _ _ _ _ _ hplain =>
    exact .inr (.inr ⟨Nat.not_lt.mp hplain, hquote, hbackslash, rfl⟩)

/-- A hexadecimal digit is read back. -/
theorem hexDigit_digitChar :
    ∀ d < 16, isHexDigit d.digitChar = true ∧ digitValue d.digitChar = d := by
  decide

/-- A control character is read back from its code. -/
theorem unicodeEscape_control {c : Char} (h : c.toNat < 0x20) (offset : Nat) (rest : List Char) :
    unicodeEscape ⟨offset, '0' :: '0' :: (c.toNat / 16).digitChar ::
      (c.toNat % 16).digitChar :: rest⟩ = .ok (c, ⟨offset + 4, rest⟩) := by
  obtain ⟨hhigh, hhigh'⟩ := hexDigit_digitChar (c.toNat / 16) (by omega)
  obtain ⟨hlow, hlow'⟩ := hexDigit_digitChar (c.toNat % 16) (by omega)
  have hzero : isHexDigit '0' = true ∧ digitValue '0' = 0 := by decide
  have hvalue : ofDigits 16 ['0', '0', (c.toNat / 16).digitChar, (c.toNat % 16).digitChar] =
      c.toNat := by
    simp only [ofDigits, List.foldl_cons, List.foldl_nil, hzero.2, hhigh', hlow']
    omega
  have hescape : hexEscape ⟨offset, '0' :: '0' :: (c.toNat / 16).digitChar ::
      (c.toNat % 16).digitChar :: rest⟩ = .ok (c.toNat, ⟨offset + 4, rest⟩) := by
    simp only [hexEscape, hzero.1, hhigh, hlow, hvalue, Bool.and_self, if_true]
  rw [unicodeEscape, hescape]
  simp only [bind, Except.bind]
  rw [if_neg (by omega), if_pos (by omega), Char.ofNat_toNat]
  rfl

/-- What is written for a character is read back as this character. -/
theorem stringFrom_encodeChar (fuel : Nat) (read : List Char) (c : Char) (offset : Nat)
    (rest : List Char) :
    ∃ offset', stringFrom (fuel + 1) read ⟨offset, encodeChar c ++ rest⟩ =
      stringFrom fuel (c :: read) ⟨offset', rest⟩ := by
  rcases encodeChar_cases c with
    ⟨x, hx, hu, hsimple⟩ | ⟨hcontrol, hx⟩ | ⟨hplain, hquote, hbackslash, hx⟩
  · refine ⟨offset + 1 + x.utf8Size, ?_⟩
    have hescape : escape ⟨offset + 1, x :: rest⟩ = .ok (c, ⟨offset + 1 + x.utf8Size, rest⟩) := by
      simp only [escape, if_neg hu, hsimple]
      rfl
    rw [hx]
    show (escape ⟨offset + 1, x :: rest⟩ >>= fun r => stringFrom fuel (r.1 :: read) r.2) = _
    rw [hescape]
    rfl
  · refine ⟨offset + 2 + 4, ?_⟩
    rw [hx]
    show (unicodeEscape ⟨offset + 2, '0' :: '0' :: (c.toNat / 16).digitChar ::
      (c.toNat % 16).digitChar :: rest⟩ >>= fun r => stringFrom fuel (r.1 :: read) r.2) = _
    rw [unicodeEscape_control hcontrol]
    rfl
  · refine ⟨offset + c.utf8Size, ?_⟩
    rw [hx, stringFrom]
    simp only [List.singleton_append, if_neg hquote, if_neg hbackslash,
      if_neg (Nat.not_lt.mpr hplain)]
    rfl

/-- What is written for characters is read back up to the closing quote. -/
theorem stringFrom_flatMap (text read : List Char) {fuel : Nat} (h : text.length < fuel)
    (offset : Nat) (rest : List Char) :
    Leaves (stringFrom fuel read ⟨offset, text.flatMap encodeChar ++ '"' :: rest⟩)
      (String.ofList (read.reverse ++ text)) rest := by
  induction text generalizing fuel read offset with
  | nil =>
      obtain ⟨fuel, rfl⟩ := Nat.exists_eq_add_one_of_ne_zero (Nat.ne_zero_of_lt h)
      rw [List.append_nil]
      exact leaves_ok _ _ _
  | cons c text ih =>
      obtain ⟨fuel, rfl⟩ := Nat.exists_eq_add_one_of_ne_zero (Nat.ne_zero_of_lt h)
      obtain ⟨offset', hstep⟩ := stringFrom_encodeChar fuel read c offset
        (text.flatMap encodeChar ++ '"' :: rest)
      rw [List.flatMap_cons, List.append_assoc, hstep]
      have hread := ih (c :: read) (Nat.lt_of_succ_lt_succ h) offset'
      rwa [List.reverse_cons, List.append_assoc, List.singleton_append] at hread

/-- Every character is written with at least one. -/
theorem encodeChar_ne_nil (c : Char) : encodeChar c ≠ [] := by
  rcases encodeChar_cases c with ⟨x, hx, -⟩ | ⟨-, hx⟩ | ⟨-, -, -, hx⟩
  · simp [hx]
  · simp [hx]
  · simp [hx]

/-- A text is no longer than what is written for it. -/
theorem length_le_flatMap (text : List Char) : text.length ≤ (text.flatMap encodeChar).length := by
  induction text with
  | nil => exact Nat.le_refl 0
  | cons c text ih =>
      have hpos := List.length_pos_iff.mpr (encodeChar_ne_nil c)
      rw [List.flatMap_cons, List.length_cons, List.length_append]
      omega

/-- A text is read back from its literal, of which the opening quote has been
passed. -/
theorem string_encodeText (text : String) (offset : Nat) (rest : List Char) :
    Leaves (string ⟨offset, text.toList.flatMap encodeChar ++ '"' :: rest⟩) text rest := by
  have hfuel : text.toList.length <
      (text.toList.flatMap encodeChar ++ '"' :: rest).length + 1 := by
    have hle := length_le_flatMap text.toList
    rw [List.length_append]
    omega
  have hread := stringFrom_flatMap text.toList [] hfuel offset rest
  rwa [List.reverse_nil, List.nil_append, String.ofList_toList] at hread

/-! ## Numbers -/

/-- A number is over where a text goes on. -/
def NumberEnds (rest : List Char) : Prop :=
  ∀ c ∈ rest.head?, c.isDigit = false ∧ c ≠ '.' ∧ c ≠ 'e' ∧ c ≠ 'E'

/-- Digits that are added to a number do not make it smaller. -/
theorem le_foldl_digits (n : Nat) (digits : List Char) :
    n ≤ digits.foldl (fun n c => n * 10 + digitValue c) n := by
  induction digits generalizing n with
  | nil => exact Nat.le_refl n
  | cons d digits ih =>
      have hle := ih (n * 10 + digitValue d)
      rw [List.foldl_cons]
      omega

/-- Digits of a number of 64 bits are all added. -/
theorem grow_eq {digits : List Char} {s n : Nat}
    (h : digits.foldl (fun n c => n * 10 + digitValue c) s ≤ maxSignificand) :
    grow s n digits =
      (digits.foldl (fun n c => n * 10 + digitValue c) s, n + digits.length, []) := by
  induction digits generalizing s n with
  | nil => rfl
  | cons d digits ih =>
      have hle := le_foldl_digits (s * 10 + digitValue d) digits
      rw [List.foldl_cons] at h ⊢
      rw [grow, if_neg (by omega), ih h, List.length_cons, Nat.add_right_comm, Nat.add_assoc]

/-- Only the number zero starts with the digit zero. -/
theorem head?_toDigits_ne {n : Nat} (h : n ≠ 0) : (Nat.toDigits 10 n).head? ≠ some '0' := by
  induction n using Nat.strongRecOn with
  | ind n ih =>
      by_cases hn : n < 10
      · have hdigit : ∀ d < 10, d ≠ 0 → d.digitChar ≠ '0' := by decide
        rw [Nat.toDigits_of_lt_base hn, List.head?_cons]
        exact fun heq => hdigit n hn h (Option.some.inj heq)
      · rw [Nat.toDigits_of_base_le (by decide) (Nat.not_lt.mp hn),
          List.head?_append, List.head?_eq_some_head Nat.toDigits_ne_nil, Option.some_or,
          ← List.head?_eq_some_head]
        exact ih (n / 10) (by omega) (by omega)

/-- A number without fraction or exponent ends as an integer, if it is in
range. -/
theorem integerEnd_of_ends {rest : List Char} (h : NumberEnds rest) (positive : Bool)
    (significand offset : Nat) :
    integerEnd positive significand ⟨offset, rest⟩ =
      if positive then .ok (.integer significand, ⟨offset, rest⟩)
      else if significand = 0 ∨ 9223372036854775808 < significand then
        .ok (.float (-significand.toUInt64.toFloat), ⟨offset, rest⟩)
      else .ok (.integer (-significand), ⟨offset, rest⟩) := by
  have hpoint : (⟨offset, rest⟩ : Cursor).peek? ≠ some '.' := fun heq => (h '.' heq).2.1 rfl
  have hexponent : ¬atExponent ⟨offset, rest⟩ := by
    rw [atExponent, Bool.or_eq_true, beq_iff_eq, beq_iff_eq]
    rintro (heq | heq)
    · exact (h 'e' heq).2.2.1 rfl
    · exact (h 'E' heq).2.2.2 rfl
  rw [integerEnd, if_neg hpoint, if_neg hexponent]

/-- Digits in front of a text that starts with none. -/
theorem span_digits {digits rest : List Char} (hdigits : ∀ c ∈ digits, c.isDigit = true)
    (h : NumberEnds rest) :
    (digits ++ rest).takeWhile Char.isDigit = digits ∧
      (digits ++ rest).dropWhile Char.isDigit = rest := by
  have hrest : ∀ c ∈ rest.head?, c.isDigit = false := fun c hc => (h c hc).1
  exact ⟨takeWhile_append hdigits hrest, dropWhile_append hdigits hrest⟩

/-- A number of 64 bits is read from its digits. -/
theorem number_toDigits {n : Nat} (hn : n ≤ maxSignificand) {rest : List Char}
    (h : NumberEnds rest) (positive : Bool) (offset : Nat) :
    ∃ offset', number positive ⟨offset, Nat.toDigits 10 n ++ rest⟩ =
      integerEnd positive n ⟨offset', rest⟩ := by
  by_cases hzero : n = 0
  · refine ⟨offset + 1, ?_⟩
    have hdigit : digit? ⟨offset + 1, rest⟩ = none := by
      rw [digit?]
      cases rest with
      | nil => rfl
      | cons c rest =>
          show (if c.isDigit then some (digitValue c) else none) = none
          rw [if_neg (by simp [(h c rfl).1])]
    rw [hzero]
    show (if (digit? ⟨offset + 1, rest⟩).isSome then _ else integerEnd positive 0 _) = _
    rw [hdigit]
    rfl
  · have hdigits := isDigit_of_mem_toDigits (n := n)
    obtain ⟨htake, hdrop⟩ := span_digits hdigits h
    have hgrow : grow 0 0 (Nat.toDigits 10 n) = (n, 0 + (Nat.toDigits 10 n).length, []) := by
      have hvalue := ofDigits_toDigits n
      rw [ofDigits] at hvalue
      rw [grow_eq (by omega), hvalue]
    cases hcs : Nat.toDigits 10 n with
    | nil => exact absurd hcs Nat.toDigits_ne_nil
    | cons d ds =>
        have hd : d ≠ '0' := by
          rintro rfl
          exact head?_toDigits_ne hzero (by rw [hcs, List.head?_cons])
        refine ⟨offset + utf8Size (d :: ds), ?_⟩
        rw [hcs] at htake hdrop hgrow hdigits
        show (if d = '0' then _ else if d.isDigit then _ else _) = _
        rw [if_neg hd, if_pos (hdigits d List.mem_cons_self)]
        simp only [htake, hgrow, Cursor.skip, hdrop]
        rfl

/-! ## Integers -/

/-- A number is printed in its decimal digits. -/
theorem toList_toString_natCast (n : Nat) : (toString (n : Int)).toList = Nat.toDigits 10 n := by
  rw [show toString (n : Int) = Nat.repr n from rfl]
  simp

/-- A negative number is printed behind a minus. -/
theorem toList_toString_negSucc (n : Nat) :
    (toString (Int.negSucc n)).toList = '-' :: Nat.toDigits 10 (n + 1) := by
  rw [show toString (Int.negSucc n) = "-" ++ Nat.repr (n + 1) from rfl]
  simp

/-- White space in front of a text that starts with none. -/
theorem skipSpace_append {gap rest : List Char} (hgap : ∀ c ∈ gap, isSpace c = true)
    (h : ∀ c ∈ rest.head?, isSpace c = false) (offset : Nat) :
    ∃ offset', skipSpace ⟨offset, gap ++ rest⟩ = ⟨offset', rest⟩ := by
  exact ⟨_, Cursor.skip_append hgap h⟩

/-- A number starts at a digit. -/
theorem number?_of_isDigit {c : Cursor} {x : Char} (h : c.peek? = some x)
    (hx : x.isDigit = true) : number? c = some (number true c) := by
  have hminus : x ≠ '-' := by
    rintro rfl
    contradiction
  unfold number?
  rw [h]
  split
  · next heq => exact absurd (Option.some.inj heq) hminus
  · next y _ heq => rw [if_pos (Option.some.inj heq ▸ hx)]
  · contradiction

/-- An integer is read back, sign and digits. -/
theorem number?_toString {n : Int} (hlow : -9223372036854775808 ≤ n)
    (hhigh : n ≤ 9223372036854775807) {rest : List Char} (h : NumberEnds rest) (offset : Nat) :
    ∃ offset', number? ⟨offset, (toString n).toList ++ rest⟩ =
      some (.ok (.integer n, ⟨offset', rest⟩)) := by
  have hmax : maxSignificand = 18446744073709551615 := rfl
  cases n with
  | ofNat n =>
      have hlarge : (n : Int) ≤ 9223372036854775807 := hhigh
      obtain ⟨offset', hnumber⟩ := number_toDigits (n := n) (by omega) h true offset
      refine ⟨offset', ?_⟩
      rw [integerEnd_of_ends h, if_pos rfl] at hnumber
      rw [show (toString (Int.ofNat n)).toList = Nat.toDigits 10 n from toList_toString_natCast n]
      have hdigits := isDigit_of_mem_toDigits (n := n)
      cases hcs : Nat.toDigits 10 n with
      | nil => exact absurd hcs Nat.toDigits_ne_nil
      | cons d ds =>
          rw [hcs] at hnumber hdigits
          rw [number?_of_isDigit rfl (hdigits d List.mem_cons_self), hnumber]
          rfl
  | negSucc n =>
      obtain ⟨offset', hnumber⟩ := number_toDigits (n := n + 1) (by omega) h false (offset + 1)
      refine ⟨offset', ?_⟩
      rw [integerEnd_of_ends h, if_neg (by decide), if_neg (by omega)] at hnumber
      rw [toList_toString_negSucc]
      show some (number false ⟨offset + 1, Nat.toDigits 10 (n + 1) ++ rest⟩) = _
      rw [hnumber]
      rfl

theorem isSpace_of_isDigit {c : Char} (h : c.isDigit = true) : isSpace c = false := by
  by_contra hspace
  rw [Bool.not_eq_false, isSpace] at hspace
  simp only [Bool.or_eq_true, beq_iff_eq] at hspace
  rcases hspace with ((rfl | rfl) | rfl) | rfl <;> contradiction

/-- An integer starts with no white space. -/
theorem head?_toString (n : Int) (rest : List Char) :
    ∃ c, ((toString n).toList ++ rest).head? = some c ∧ isSpace c = false := by
  cases n with
  | ofNat n =>
      rw [show (toString (Int.ofNat n)).toList = Nat.toDigits 10 n from toList_toString_natCast n,
        List.head?_append, List.head?_eq_some_head Nat.toDigits_ne_nil, Option.some_or]
      exact ⟨_, rfl, isSpace_of_isDigit (isDigit_of_mem_toDigits _ (List.head_mem _))⟩
  | negSucc n =>
      rw [toList_toString_negSucc]
      exact ⟨'-', rfl, rfl⟩

/-- An integer between bounds is read back. -/
theorem integer_toString {low high n : Int} (hlow : low ≤ n) (hhigh : n ≤ high)
    (hmin : -9223372036854775808 ≤ n) (hmax : n ≤ 9223372036854775807) {gap rest : List Char}
    (hgap : ∀ c ∈ gap, isSpace c = true) (h : NumberEnds rest) (expected : String)
    (offset : Nat) :
    Leaves (integer low high expected ⟨offset, gap ++ ((toString n).toList ++ rest)⟩) n rest := by
  obtain ⟨c, hc, hspace⟩ := head?_toString n rest
  have hfirst : ∀ x ∈ ((toString n).toList ++ rest).head?, isSpace x = false := by
    rw [hc]
    rintro _ ⟨⟩
    exact hspace
  obtain ⟨offset₁, hskip⟩ := skipSpace_append hgap hfirst offset
  obtain ⟨offset₂, hnumber⟩ := number?_toString hmin hmax h offset₁
  refine ⟨offset₂, ?_⟩
  rw [integer, hskip]
  simp only [Cursor.peek?, hc, hnumber, if_pos (And.intro hlow hhigh)]

/-! ## Objects -/

/-- A colon is passed. -/
theorem colon_cons (offset : Nat) (rest : List Char) :
    colon ⟨offset, ':' :: rest⟩ = .ok ⟨offset + 0 + 1, rest⟩ :=
  rfl

section

variable {gap rest : List Char}

/-- A text is written behind a quote. -/
theorem encodeText_append (text : String) (rest : List Char) :
    encodeText text ++ rest = '"' :: (text.toList.flatMap encodeChar ++ '"' :: rest) := by
  simp [encodeText]

/-- A literal starts with no white space. -/
theorem isSpace_of_head?_quote : ∀ c ∈ ('"' :: rest).head?, isSpace c = false := by
  rintro _ ⟨⟩
  rfl

/-- The first key of an object is read. -/
theorem nextKey?_first (hgap : ∀ c ∈ gap, isSpace c = true) (key : String) (offset : Nat) :
    Leaves (nextKey? true ⟨offset, gap ++ (encodeText key ++ rest)⟩) (some key) rest := by
  rw [encodeText_append]
  obtain ⟨offset₁, hskip⟩ := skipSpace_append hgap isSpace_of_head?_quote offset
  rw [nextKey?, hskip]
  exact (string_encodeText key _ rest).bind fun offset => leaves_ok _ offset rest

/-- A later key of an object is read behind a comma. -/
theorem nextKey?_later (hgap : ∀ c ∈ gap, isSpace c = true) (key : String) (offset : Nat) :
    Leaves (nextKey? false ⟨offset, ',' :: (gap ++ (encodeText key ++ rest))⟩) (some key) rest := by
  rw [encodeText_append]
  obtain ⟨offset₁, hskip⟩ := skipSpace_append hgap isSpace_of_head?_quote (offset + 0 + 1)
  have hcomma (tail : List Char) :
      skipSpace ⟨offset, ',' :: tail⟩ = ⟨offset + 0, ',' :: tail⟩ := rfl
  have hadvance (tail : List Char) :
      Cursor.advance ⟨offset + 0, ',' :: tail⟩ = ⟨offset + 0 + 1, tail⟩ := rfl
  rw [nextKey?, hcomma, hadvance, hskip]
  exact (string_encodeText key _ rest).bind fun offset => leaves_ok _ offset rest

/-- The end of an object is found. -/
theorem nextKey?_end (hgap : ∀ c ∈ gap, isSpace c = true) (first : Bool) (offset : Nat) :
    Leaves (nextKey? first ⟨offset, gap ++ '\x7d' :: rest⟩) none ('\x7d' :: rest) := by
  have hbrace : ∀ c ∈ ('\x7d' :: rest).head?, isSpace c = false := by
    rintro _ ⟨⟩
    rfl
  obtain ⟨offset₁, hskip⟩ := skipSpace_append hgap hbrace offset
  rw [nextKey?, hskip]
  exact leaves_ok _ _ _

end

end StackRisc.Json
