import StackRisc.Literal
import StackRisc.Text.Blank
import Mathlib.Data.List.TakeWhile

/-!
# StackRisc.Proofs.Text.Literal

What literals are written with.  A literal is read by the first of three
readers that takes it, and each of them says what it has consumed:

* `Literal.scan_cases` — a literal comes from one of the readers;
* `Literal.isName_of_read?`, `Literal.scan_name` — references are written as
  names, and names are read as a whole;
* `Literal.isNumeral_of_scan` — numbers are written as numerals.
-/

namespace StackRisc

open Text

/-! ## Names as they are written -/

/-- A text that a name can be. -/
def Text.IsName (cs : List Char) : Prop := cs ≠ [] ∧ ∀ c ∈ cs, isNameChar c = true

instance (cs : List Char) : Decidable (IsName cs) :=
  decidable_of_iff (cs ≠ [] ∧ cs.all isNameChar = true) (and_congr_right' List.all_eq_true)

/-- The code points of the blanks. -/
def Text.blanks : List Nat :=
  [9, 10, 11, 12, 13, 0x20, 0x85, 0xa0, 0x1680, 0x2000, 0x2001, 0x2002, 0x2003, 0x2004, 0x2005,
   0x2006, 0x2007, 0x2008, 0x2009, 0x200a, 0x2028, 0x2029, 0x202f, 0x205f, 0x3000]

theorem Text.toNat_mem_blanks {c : Char} (h : isBlank c = true) : c.toNat ∈ blanks := by
  simp only [isBlank, Bool.or_eq_true, Bool.and_eq_true, decide_eq_true_eq, beq_iff_eq] at h
  simp only [blanks, List.mem_cons, List.not_mem_nil, or_false]
  omega

/-- No blank is part of a name, in either case. -/
theorem Text.not_isNameChar_of_mem_blanks :
    ∀ n ∈ blanks, isNameChar (Char.ofNat n).toUpper = false := by
  decide +kernel

/-- No blank stands for a character of a name, whatever its case. -/
theorem Text.isBlank_eq_false_of_toUpper {c : Char} (h : isNameChar c.toUpper = true) :
    isBlank c = false := by
  cases hblank : isBlank c with
  | false => rfl
  | true =>
      have hc := not_isNameChar_of_mem_blanks c.toNat (toNat_mem_blanks hblank)
      rw [Char.ofNat_toNat, h] at hc
      exact hc

/-! ## Numbers as they are written -/

/-- A character of a number: a digit, the mark of its base or its sign. -/
def Text.isNumeralChar (c : Char) : Bool :=
  isHexDigit c || c == '$' || c == '@' || c == '#' || c == '+' || c == '-'

/-- A text that a number can be: the mark of a base, and what may follow it. -/
structure Text.IsNumeral (cs : List Char) : Prop where
  mark : cs.head? = some '$' ∨ cs.head? = some '@' ∨ cs.head? = some '#'
  chars : ∀ c ∈ cs, isNumeralChar c = true

theorem Text.isNumeralChar_of_isHexDigit {c : Char} (h : isHexDigit c = true) :
    isNumeralChar c = true := by
  simp [isNumeralChar, h]

theorem Text.isHexDigit_of_isDigit {c : Char} (h : c.isDigit = true) : isHexDigit c = true := by
  simp [isHexDigit, h]

namespace Literal

variable {cs rest : List Char} {literal : Literal} {name : String} {n : Int}

/-! ## Readers -/

/-- A hexadecimal literal is its mark and all digits behind it. -/
theorem scanHex_eq_some (h : scanHex cs = some (literal, rest)) :
    ∃ mark digits, (mark = '$' ∨ mark = '@') ∧ cs = mark :: (digits ++ rest) ∧
      (∀ c ∈ digits, isHexDigit c = true) ∧ literal = .hex (saturate (ofDigits 16 digits)) := by
  cases cs with
  | nil => contradiction
  | cons c cs =>
      simp only [scanHex, Option.ite_none_right_eq_some, Bool.and_eq_true, Bool.or_eq_true,
        beq_iff_eq, Option.some.injEq, Prod.mk.injEq] at h
      obtain ⟨⟨hmark, -⟩, hliteral, rfl⟩ := h
      refine ⟨c, cs.takeWhile isHexDigit, hmark, ?_, fun d => List.mem_takeWhile_imp,
        hliteral.symm⟩
      rw [List.takeWhile_append_dropWhile]

/-- There is at most one sign. -/
theorem scanSign_eq (cs : List Char) :
    ∃ sign, cs = sign ++ (scanSign cs).2 ∧ (sign = [] ∨ sign = ['-'] ∨ sign = ['+']) := by
  unfold scanSign
  split
  · exact ⟨['-'], rfl, .inr (.inl rfl)⟩
  · exact ⟨['+'], rfl, .inr (.inr rfl)⟩
  · exact ⟨[], rfl, .inl rfl⟩

/-- A decimal literal is its mark, a sign and all digits behind it. -/
theorem scanDecimal_eq_some (h : scanDecimal cs = some (literal, rest)) :
    ∃ sign digits, (sign = [] ∨ sign = ['-'] ∨ sign = ['+']) ∧
      cs = '#' :: (sign ++ digits ++ rest) ∧ (∀ c ∈ digits, c.isDigit = true) ∧
      ∃ n, literal = .decimal n := by
  unfold scanDecimal at h
  split at h
  · next cs =>
    simp only [Option.ite_none_left_eq_some, Option.some.injEq, Prod.mk.injEq] at h
    obtain ⟨-, hliteral, rfl⟩ := h
    obtain ⟨sign, hcs, hsign⟩ := scanSign_eq cs
    refine ⟨sign, (scanSign cs).2.takeWhile Char.isDigit, hsign, ?_,
      fun c => List.mem_takeWhile_imp, _, hliteral.symm⟩
    rw [List.append_assoc, List.takeWhile_append_dropWhile, ← hcs]
  · contradiction

/-- A reference is a name. -/
theorem scanName_eq_some (h : scanName cs = some (literal, rest)) :
    ∃ name, IsName name ∧ cs = name ++ rest ∧ literal = .reference (String.ofList name) := by
  simp only [scanName, Option.ite_none_left_eq_some, Option.some.injEq, Prod.mk.injEq,
    List.isEmpty_iff] at h
  obtain ⟨hne, hliteral, rfl⟩ := h
  refine ⟨cs.takeWhile isNameChar, ⟨hne, fun c => List.mem_takeWhile_imp⟩, ?_, hliteral.symm⟩
  rw [List.takeWhile_append_dropWhile]

/-- A literal comes from one of the readers. -/
theorem scan_cases {found : Literal × List Char} (h : scan cs = some found) :
    scanHex cs = some found ∨ scanDecimal cs = some found ∨ scanName cs = some found := by
  unfold scan at h
  cases hhex : scanHex cs with
  | some other =>
      rw [hhex] at h
      exact .inl h
  | none =>
      cases hdecimal : scanDecimal cs with
      | some other =>
          rw [hhex, hdecimal] at h
          exact .inr (.inl h)
      | none =>
          rw [hhex, hdecimal] at h
          exact .inr (.inr h)

/-! ## References and numbers -/

/-- A literal that is read is scanned to the end. -/
theorem scan_of_read? (h : read? cs = some literal) : scan cs = some (literal, []) := by
  unfold read? at h
  split at h
  · next hscan =>
    cases h
    exact hscan
  · contradiction

/-- Only names are read as references. -/
theorem isName_of_read? (h : read? cs = some (.reference name)) : IsName name.toList := by
  rcases scan_cases (scan_of_read? h) with hhex | hdecimal | hname
  · obtain ⟨_, _, _, _, _, hliteral⟩ := scanHex_eq_some hhex
    contradiction
  · obtain ⟨_, _, _, _, _, _, hliteral⟩ := scanDecimal_eq_some hdecimal
    contradiction
  · obtain ⟨cs, hcs, -, hliteral⟩ := scanName_eq_some hname
    rw [Literal.reference.inj hliteral, String.toList_ofList]
    exact hcs

/-- A reference is the text that it was read from. -/
theorem toList_of_read? (h : read? cs = some (.reference name)) : name.toList = cs := by
  rcases scan_cases (scan_of_read? h) with hhex | hdecimal | hname
  · obtain ⟨_, _, _, _, _, hliteral⟩ := scanHex_eq_some hhex
    contradiction
  · obtain ⟨_, _, _, _, _, _, hliteral⟩ := scanDecimal_eq_some hdecimal
    contradiction
  · obtain ⟨front, -, rfl, hliteral⟩ := scanName_eq_some hname
    rw [Literal.reference.inj hliteral, String.toList_ofList, List.append_nil]

/-- A name is read as a whole. -/
theorem scan_name (h : IsName cs) : scan cs = some (.reference (String.ofList cs), []) := by
  obtain ⟨hne, hchars⟩ := h
  have htake : cs.takeWhile isNameChar = cs := List.takeWhile_eq_self_iff.mpr hchars
  have hdrop : cs.dropWhile isNameChar = [] := List.dropWhile_eq_nil_iff.mpr hchars
  have hempty : cs.isEmpty = false := List.isEmpty_eq_false_iff.mpr hne
  have hname : scanName cs = some (.reference (String.ofList cs), []) := by
    rw [scanName]
    simp only [htake, hdrop, hempty, Bool.false_eq_true, if_false]
  cases cs with
  | nil => contradiction
  | cons c rest =>
      have hc : isNameChar c = true := hchars c List.mem_cons_self
      have hother : ∀ d, isNameChar d = false → c ≠ d := by
        rintro d hd rfl
        rw [hc] at hd
        contradiction
      have hhex : scanHex (c :: rest) = none := by
        simp [scanHex, hother '$' (by decide), hother '@' (by decide)]
      have hdecimal : scanDecimal (c :: rest) = none := by
        unfold scanDecimal
        split
        · next heq => exact absurd (List.cons.inj heq).1 (hother '#' (by decide))
        · rfl
      rw [scan, hhex, hdecimal, hname]
      rfl

/-- Only numerals are read as numbers. -/
theorem isNumeral_of_scan (h : scan cs = some (literal, [])) (hn : literal.number? = some n) :
    IsNumeral cs := by
  rcases scan_cases h with hhex | hdecimal | hname
  · obtain ⟨mark, digits, hmark, rfl, hdigits, -⟩ := scanHex_eq_some hhex
    refine ⟨?_, ?_⟩
    · rcases hmark with rfl | rfl
      · exact .inl rfl
      · exact .inr (.inl rfl)
    · simp only [List.append_nil, List.mem_cons, forall_eq_or_imp]
      refine ⟨?_, fun c hc => isNumeralChar_of_isHexDigit (hdigits c hc)⟩
      rcases hmark with rfl | rfl <;> decide
  · obtain ⟨sign, digits, hsign, rfl, hdigits, -⟩ := scanDecimal_eq_some hdecimal
    refine ⟨.inr (.inr rfl), ?_⟩
    simp only [List.append_nil, List.mem_cons, List.mem_append, forall_eq_or_imp]
    refine ⟨by decide, fun c hc => ?_⟩
    rcases hc with hc | hc
    · rcases hsign with rfl | rfl | rfl
      · contradiction
      · rw [List.mem_singleton.mp hc]
        decide
      · rw [List.mem_singleton.mp hc]
        decide
    · exact isNumeralChar_of_isHexDigit (isHexDigit_of_isDigit (hdigits c hc))
  · obtain ⟨_, -, -, rfl⟩ := scanName_eq_some hname
    contradiction

end Literal

end StackRisc
