import StackRisc.Proofs.Text.Blank
import StackRisc.Proofs.Text.Digits
import Mathlib.Data.List.Forall2
import Mathlib.Data.Nat.Digits.Defs

/-!
# StackRisc.Proofs.Text.Numeral

The number that a numeral stands for, and what is read of it.  A numeral may
have any number of digits, so its number may lie outside of what can be held:

* `Text.NumeralFor` — a text is a numeral for a number;
* `Text.ofDigits_reverse` — going over digits gives the number in positional
  notation;
* `Literal.scan_numeral` — a numeral is read as a whole, and its number is
  brought to the nearer end of the 64-bit range.
-/

namespace StackRisc

namespace Text

/-! ## Numerals -/

/-- A digit of a base, in either case, and the number that it stands for. -/
def IsDigit (base : Nat) (c : Char) (d : Nat) : Prop :=
  d < base ∧ (c = Nat.digitChar d ∨ c = (Nat.digitChar d).toUpper)

instance (base : Nat) (c : Char) (d : Nat) : Decidable (IsDigit base c d) :=
  inferInstanceAs (Decidable (_ ∧ _))

/-- A text is a string of digits of a base, at least one, and stands for a
number in positional notation. -/
def DigitsFor (base : Nat) (digits : List Char) (n : Nat) : Prop :=
  digits ≠ [] ∧ ∃ values, List.Forall₂ (IsDigit base) digits values ∧
    n = Nat.ofDigits base values.reverse

/-- A sign, which may be left out, and the factor that it stands for. -/
inductive SignFor : List Char → Int → Prop where
  | none : SignFor [] 1
  | plus : SignFor ['+'] 1
  | minus : SignFor ['-'] (-1)

/-- A text is a numeral for a number: hexadecimal digits behind one of their
marks, or decimal digits with an optional sign behind theirs. -/
inductive NumeralFor : List Char → Int → Prop where
  | hex {mark : Char} {digits : List Char} {n : Nat} :
      (mark = '$' ∨ mark = '@') → DigitsFor 16 digits n → NumeralFor (mark :: digits) n
  | decimal {sign digits : List Char} {factor : Int} {n : Nat} :
      SignFor sign factor → DigitsFor 10 digits n →
        NumeralFor ('#' :: (sign ++ digits)) (factor * n)

variable {base : Nat} {c : Char} {d n : Nat} {digits : List Char} {v : Int}

/-! ## Digits -/

/-- A digit is read as its value. -/
theorem IsDigit.digitValue_eq (h : IsDigit base c d) (hbase : base ≤ 16) : digitValue c = d := by
  have hall : ∀ d < 16, digitValue (Nat.digitChar d) = d ∧
      digitValue (Nat.digitChar d).toUpper = d := by decide
  obtain ⟨hlower, hupper⟩ := hall d (Nat.lt_of_lt_of_le h.1 hbase)
  rcases h.2 with rfl | rfl
  · exact hlower
  · exact hupper

theorem IsDigit.isHexDigit (h : IsDigit 16 c d) : isHexDigit c = true := by
  have hall : ∀ d < 16, Text.isHexDigit (Nat.digitChar d) = true ∧
      Text.isHexDigit (Nat.digitChar d).toUpper = true := by decide
  obtain ⟨hlower, hupper⟩ := hall d h.1
  rcases h.2 with rfl | rfl
  · exact hlower
  · exact hupper

theorem IsDigit.isDigit (h : IsDigit 10 c d) : c.isDigit = true := by
  have hall : ∀ d < 10, (Nat.digitChar d).isDigit = true ∧
      (Nat.digitChar d).toUpper.isDigit = true := by decide
  obtain ⟨hlower, hupper⟩ := hall d h.1
  rcases h.2 with rfl | rfl
  · exact hlower
  · exact hupper

theorem IsDigit.toUpper (h : IsDigit base c d) : IsDigit base c.toUpper d := by
  refine ⟨h.1, .inr ?_⟩
  rcases h.2 with rfl | rfl
  · rfl
  · exact toUpper_toUpper _

/-- Going over digits gives their number in positional notation. -/
theorem ofDigits_reverse {digits : List Char} {values : List Nat}
    (h : List.Forall₂ (IsDigit base) digits values) (hbase : base ≤ 16) :
    ofDigits base digits.reverse = Nat.ofDigits base values := by
  induction h with
  | nil => rfl
  | cons hd _ ih =>
      rw [List.reverse_cons, ofDigits_append_singleton, ih, hd.digitValue_eq hbase,
        Nat.ofDigits_cons, Nat.mul_comm, Nat.add_comm]

/-- Digits are read as the number that they stand for. -/
theorem DigitsFor.ofDigits_eq (h : DigitsFor base digits n) (hbase : base ≤ 16) :
    ofDigits base digits = n := by
  obtain ⟨-, values, hvalues, rfl⟩ := h
  rw [← ofDigits_reverse (List.forall₂_reverse_iff.mpr hvalues) hbase, List.reverse_reverse]

/-- What holds of every digit holds of each character of a digit string. -/
theorem DigitsFor.forall_mem {P : Char → Prop} (h : DigitsFor base digits n)
    (hP : ∀ c d, IsDigit base c d → P c) : ∀ c ∈ digits, P c := by
  obtain ⟨-, values, hvalues, -⟩ := h
  intro c hc
  obtain ⟨i, hi, rfl⟩ := List.getElem_of_mem hc
  exact hP _ _ (hvalues.get hi (hvalues.length_eq ▸ hi))

/-! ## Letter case -/

/-- They stand for it in capitals too. -/
theorem DigitsFor.upper (h : DigitsFor base digits n) : DigitsFor base (upper digits) n := by
  obtain ⟨hne, values, hvalues, hn⟩ := h
  refine ⟨fun hnil => hne (upper_eq_nil_iff.mp hnil), values, ?_, hn⟩
  exact List.forall₂_map_left_iff.mpr (hvalues.imp fun _ _ hd => hd.toUpper)

/-- Signs have no case. -/
theorem SignFor.upper {sign : List Char} {factor : Int} (h : SignFor sign factor) :
    upper sign = sign := by
  cases h <;> rfl

/-- The case of its digits makes no difference to a numeral. -/
theorem NumeralFor.upper {token : List Char} (h : NumeralFor token v) :
    NumeralFor (upper token) v := by
  cases h with
  | hex hmark hdigits =>
      rcases hmark with rfl | rfl
      · exact .hex (.inl rfl) hdigits.upper
      · exact .hex (.inr rfl) hdigits.upper
  | decimal hsign hdigits =>
      have hnumeral := NumeralFor.decimal hsign hdigits.upper
      rwa [← hsign.upper, Text.upper, Text.upper, ← List.map_append] at hnumeral

end Text

namespace Literal

open Text

variable {sign digits token : List Char} {factor v : Int}

/-! ## Reading -/

theorem read?_of_scan {literal : Literal} (h : scan token = some (literal, [])) :
    read? token = some literal := by
  rw [read?, h]

/-- A sign in front of digits is read as its factor. -/
theorem scanSign_eq_of_signFor (h : SignFor sign factor)
    (hdigits : ∀ c ∈ digits, c.isDigit = true) : scanSign (sign ++ digits) = (factor, digits) := by
  cases h with
  | none => exact scanSign_digits hdigits
  | plus => rfl
  | minus => rfl

/-- A numeral is read as a whole, and its number is brought to the nearer end
of the 64-bit range. -/
theorem scan_numeral (h : NumeralFor token v) :
    ∃ literal, scan token = some (literal, []) ∧ literal.number? = some (saturate v) := by
  cases h with
  | @hex mark digits n hmark hdigits =>
      have hhex := hdigits.forall_mem fun _ _ hd => hd.isHexDigit
      refine ⟨_, scan_hex hmark hdigits.1 hhex, ?_⟩
      rw [hdigits.ofDigits_eq (Nat.le_refl 16)]
      rfl
  | @decimal sign digits factor n hsign hdigits =>
      have hdecimal := hdigits.forall_mem fun _ _ hd => hd.isDigit
      refine ⟨_, scan_decimal (scanSign_eq_of_signFor hsign hdecimal) hdigits.1 hdecimal, ?_⟩
      rw [hdigits.ofDigits_eq (by decide)]
      rfl

end Literal

end StackRisc
