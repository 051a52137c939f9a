/-!
# StackRisc.Text.Numeral

Digits: reading a run of digits in a base, and the fixed forms in which
numbers are written (plain hexadecimal, two-digit bytes, eight-digit
addresses).
-/

namespace StackRisc.Text

/-! ## Reading -/

/-- A digit of base sixteen, in either case. -/
def isHexDigit (c : Char) : Bool :=
  c.isDigit || ('a' ≤ c && c ≤ 'f') || ('A' ≤ c && c ≤ 'F')

/-- Value of a digit of base sixteen, in either case. -/
def digitValue (c : Char) : Nat :=
  if c.isDigit then c.toNat - '0'.toNat
  else if 'a' ≤ c ∧ c ≤ 'f' then c.toNat - 'a'.toNat + 10
  else if 'A' ≤ c ∧ c ≤ 'F' then c.toNat - 'A'.toNat + 10
  else 0

/-- The number that a run of digits stands for, most significant first. -/
def ofDigits (base : Nat) (cs : List Char) : Nat :=
  cs.foldl (fun n c => n * base + digitValue c) 0

/-- Bring a number into the range of signed 64-bit integers. -/
def saturate (n : Int) : Int := max (-9223372036854775808) (min n 9223372036854775807)

/-- A number in range is kept. -/
theorem saturate_eq_self {n : Int} (hl : -9223372036854775808 ≤ n)
    (hu : n ≤ 9223372036854775807) : saturate n = n := by
  unfold saturate; omega

/-! ## Writing -/

/-- Fill a text up to a width, on its left. -/
def padLeft (width : Nat) (fill : Char) (text : String) : String :=
  String.ofList (List.replicate (width - text.length) fill) ++ text

/-- Fill a text up to a width with spaces, on its right. -/
def padRight (width : Nat) (text : String) : String :=
  text ++ String.ofList (List.replicate (width - text.length) ' ')

/-- Lower-case hexadecimal digits. -/
def hex (n : Nat) : String := String.ofList (Nat.toDigits 16 n)

/-- Upper-case hexadecimal digits. -/
def hexUpper (n : Nat) : String := String.ofList ((Nat.toDigits 16 n).map Char.toUpper)

/-- A byte as two lower-case hexadecimal digits. -/
def hexByte (b : UInt8) : String := padLeft 2 '0' (hex b.toNat)

/-- A number behind `0x`, without padding. -/
def hexShort (n : Nat) : String := "0x" ++ hex n

/-- A byte behind `0x`, two digits. -/
def hexCode (b : UInt8) : String := "0x" ++ hexByte b

/-- An address behind `0x`, eight digits. -/
def hexAddress (a : UInt32) : String := "0x" ++ padLeft 8 '0' (hex a.toNat)

end StackRisc.Text
