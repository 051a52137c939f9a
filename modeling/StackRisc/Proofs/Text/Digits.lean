import StackRisc.Literal
import Mathlib.Algebra.GroupWithZero.Nat
import Mathlib.Data.List.TakeWhile

/-!
# StackRisc.Proofs.Text.Digits

Numbers are read back from their digits:

* `Text.ofDigits_map_toDigits` — in any base, whatever form the digits have
  that keeps their values;
* `Literal.scan_hex`, `Literal.scan_decimal` — digits behind the mark of their
  base are read as a whole;
* `Literal.read?_hex`, `Literal.read?_decimal` — so operands are read back.
-/

namespace StackRisc

namespace Text

/-! ## Digits of a number -/

/-- What holds of all digits holds of those of a number. -/
theorem forall_mem_toDigits {b : Nat} {P : Char → Prop} (hb : 1 < b)
    (h : ∀ d, d < b → P (Nat.digitChar d)) (n : Nat) : ∀ c ∈ Nat.toDigits b n, P c := by
  induction n using Nat.strongRecOn with
  | ind n ih =>
      by_cases hn : n < b
      · rw [Nat.toDigits_of_lt_base hn]
        intro c hc
        rw [List.mem_singleton.mp hc]
        exact h n hn
      · have hlt : n / b < n := Nat.div_lt_self (by omega) hb
        rw [Nat.toDigits_of_base_le hb (Nat.not_lt.mp hn)]
        intro c hc
        rcases List.mem_append.mp hc with hc | hc
        · exact ih (n / b) hlt c hc
        · rw [List.mem_singleton.mp hc]
          exact h (n % b) (Nat.mod_lt n (by omega))

/-- One more digit counts once, and all others once more by the base. -/
theorem ofDigits_append_singleton (b : Nat) (cs : List Char) (c : Char) :
    ofDigits b (cs ++ [c]) = ofDigits b cs * b + digitValue c := by
  rw [ofDigits, ofDigits, List.foldl_append]
  rfl

/-- A number is read back from its digits. -/
theorem ofDigits_map_toDigits {b : Nat} {f : Char → Char} (hb : 1 < b)
    (hf : ∀ d, d < b → digitValue (f (Nat.digitChar d)) = d) (n : Nat) :
    ofDigits b ((Nat.toDigits b n).map f) = n := by
  induction n using Nat.strongRecOn with
  | ind n ih =>
      by_cases hn : n < b
      · rw [Nat.toDigits_of_lt_base hn, List.map_singleton]
        show 0 * b + digitValue (f (Nat.digitChar n)) = n
        rw [hf n hn, Nat.zero_mul, Nat.zero_add]
      · have hlt : n / b < n := Nat.div_lt_self (by omega) hb
        rw [Nat.toDigits_of_base_le hb (Nat.not_lt.mp hn), List.map_append, List.map_singleton,
          ofDigits_append_singleton, ih (n / b) hlt, hf _ (Nat.mod_lt n (by omega)), Nat.mul_comm]
        exact Nat.div_add_mod n b

/-- Digits of base sixteen as they are written. -/
def upperDigits (n : Nat) : List Char := (Nat.toDigits 16 n).map Char.toUpper

theorem forall_mem_upperDigits {P : Char → Prop}
    (h : ∀ d, d < 16 → P (Nat.digitChar d).toUpper) (n : Nat) : ∀ c ∈ upperDigits n, P c := by
  intro c hc
  obtain ⟨x, hx, rfl⟩ := List.mem_map.mp hc
  exact forall_mem_toDigits (P := fun x => P x.toUpper) (by decide) h n x hx

theorem isHexDigit_of_mem_upperDigits {n : Nat} : ∀ c ∈ upperDigits n, isHexDigit c = true :=
  forall_mem_upperDigits (by decide) n

/-- A number is read back from its hexadecimal digits. -/
theorem ofDigits_upperDigits (n : Nat) : ofDigits 16 (upperDigits n) = n :=
  ofDigits_map_toDigits (by decide) (by decide) n

theorem isDigit_of_mem_toDigits {n : Nat} : ∀ c ∈ Nat.toDigits 10 n, c.isDigit = true :=
  forall_mem_toDigits (by decide) (by decide) n

/-- A number is read back from its decimal digits. -/
theorem ofDigits_toDigits (n : Nat) : ofDigits 10 (Nat.toDigits 10 n) = n := by
  have hread := ofDigits_map_toDigits (b := 10) (f := id) (by decide) (by decide) n
  rwa [List.map_id] at hread

/-! ## Numbers of a fixed width -/

/-- Leading zeros do not count. -/
theorem ofDigits_zeros (base k : Nat) (cs : List Char) :
    ofDigits base (List.replicate k '0' ++ cs) = ofDigits base cs := by
  induction k with
  | zero => rfl
  | succ k ih =>
      have hzero : ofDigits base ('0' :: (List.replicate k '0' ++ cs)) =
          ofDigits base (List.replicate k '0' ++ cs) := by
        have hdigit : 0 * base + digitValue '0' = 0 := by
          rw [Nat.zero_mul]
          rfl
        rw [ofDigits, List.foldl_cons, hdigit, ofDigits]
      rw [List.replicate_succ, List.cons_append, hzero, ih]

/-- Hexadecimal digits of a number, filled up to a width. -/
theorem toList_padLeft_hex (width n : Nat) :
    (padLeft width '0' (hex n)).toList =
      List.replicate (width - (Nat.toDigits 16 n).length) '0' ++ Nat.toDigits 16 n := by
  simp [padLeft, hex]

/-- A number that fits into a field fills it. -/
theorem length_padLeft_hex {width n : Nat} (hwidth : 0 < width) (h : n < 16 ^ width) :
    (padLeft width '0' (hex n)).toList.length = width := by
  have hlength := (Nat.length_toDigits_le_iff (by decide) hwidth).mpr h
  rw [toList_padLeft_hex, List.length_append, List.length_replicate, Nat.sub_add_cancel hlength]

/-- A number is read back from its field. -/
theorem ofDigits_padLeft_hex (width n : Nat) :
    ofDigits 16 (padLeft width '0' (hex n)).toList = n := by
  have hread := ofDigits_map_toDigits (b := 16) (f := id) (by decide) (by decide) n
  rw [List.map_id] at hread
  rw [toList_padLeft_hex, ofDigits_zeros, hread]

theorem not_mem_padLeft_hex (width n : Nat) : ' ' ∉ (padLeft width '0' (hex n)).toList := by
  have hdigits : ∀ c ∈ Nat.toDigits 16 n, c ≠ ' ' :=
    forall_mem_toDigits (by decide) (by decide) n
  rw [toList_padLeft_hex, List.mem_append, not_or]
  refine ⟨fun hmem => ?_, fun hmem => hdigits _ hmem rfl⟩
  exact absurd (List.eq_of_mem_replicate hmem) (by decide)

end Text

namespace Literal

open Text

/-! ## Operands -/

variable {digits : List Char}

/-- Digits of base sixteen behind a mark are read as a whole. -/
theorem scan_hex {mark : Char} (hmark : mark = '$' ∨ mark = '@') (hne : digits ≠ [])
    (hdigits : ∀ c ∈ digits, isHexDigit c = true) :
    scan (mark :: digits) = some (.hex (saturate (ofDigits 16 digits)), []) := by
  have htake : digits.takeWhile isHexDigit = digits := List.takeWhile_eq_self_iff.mpr hdigits
  have hdrop : digits.dropWhile isHexDigit = [] := List.dropWhile_eq_nil_iff.mpr hdigits
  have hempty : digits.isEmpty = false := List.isEmpty_eq_false_iff.mpr hne
  rw [scan, scanHex]
  simp only [htake, hdrop, hempty]
  rcases hmark with rfl | rfl <;> rfl

/-- Digits without a sign in front. -/
theorem scanSign_digits (hdigits : ∀ c ∈ digits, c.isDigit = true) :
    scanSign digits = (1, digits) := by
  unfold scanSign
  split
  · exact absurd (hdigits '-' List.mem_cons_self) (by decide)
  · exact absurd (hdigits '+' List.mem_cons_self) (by decide)
  · rfl

/-- Digits of base ten behind a sign are read as a whole. -/
theorem scan_decimal {cs : List Char} {factor : Int} (hsign : scanSign cs = (factor, digits))
    (hne : digits ≠ []) (hdigits : ∀ c ∈ digits, c.isDigit = true) :
    scan ('#' :: cs) = some (.decimal (saturate (factor * ofDigits 10 digits)), []) := by
  have htake : digits.takeWhile Char.isDigit = digits := List.takeWhile_eq_self_iff.mpr hdigits
  have hdrop : digits.dropWhile Char.isDigit = [] := List.dropWhile_eq_nil_iff.mpr hdigits
  have hempty : digits.isEmpty = false := List.isEmpty_eq_false_iff.mpr hne
  rw [scan, scanDecimal, hsign]
  simp only [htake, hdrop, hempty]
  rfl

/-- A number in range is its own literal. -/
theorem saturate_natCast {n : Nat} (h : n ≤ 9223372036854775807) : saturate n = n :=
  saturate_eq_self (by omega) (by omega)

/-- An operand of base sixteen is read back. -/
theorem read?_hex {n : Nat} (h : n ≤ 9223372036854775807) :
    read? ('$' :: upperDigits n) = some (.hex n) := by
  have hne : upperDigits n ≠ [] := by
    rw [upperDigits, Ne, List.map_eq_nil_iff]
    exact Nat.toDigits_ne_nil
  rw [read?, scan_hex (.inl rfl) hne isHexDigit_of_mem_upperDigits, ofDigits_upperDigits,
    saturate_natCast h]

/-- An operand of base ten is read back. -/
theorem read?_decimal {n : Nat} (h : n ≤ 9223372036854775807) :
    read? ('#' :: Nat.toDigits 10 n) = some (.decimal n) := by
  rw [read?, scan_decimal (scanSign_digits isDigit_of_mem_toDigits) Nat.toDigits_ne_nil
    isDigit_of_mem_toDigits, ofDigits_toDigits, Int.one_mul, saturate_natCast h]

end Literal

end StackRisc
