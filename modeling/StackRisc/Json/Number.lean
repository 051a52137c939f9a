import StackRisc.Decimal.Shortest
import StackRisc.Json.Error
import StackRisc.Text.Cursor

/-!
# StackRisc.Json.Number

Numbers.  A run of digits that fits 64 bits, without fraction or exponent,
is an integer; every other number, and negative zero, is a binary
floating-point number, which is refused when it is too large.
-/

namespace StackRisc.Json

open Text

inductive Number where
  | integer (value : Int)
  | float (value : Float)

/-- How a number is named in a report. -/
def Number.found : Number → Found
  | integer value => .integer value
  | float value => .float (Decimal.text value)

/-! ## Places -/

def ahead (c : Cursor) : Nat := if c.rest.isEmpty then c.offset else c.offset + 1

def digit? (c : Cursor) : Option Nat :=
  match c.peek? with
  | some x => if x.isDigit then some (digitValue x) else none
  | none => none

/-- Whether an exponent starts at the cursor. -/
def atExponent (c : Cursor) : Bool := c.peek? == some 'e' || c.peek? == some 'E'

def skipSign (c : Cursor) : Cursor :=
  if c.peek? = some '+' ∨ c.peek? = some '-' then c.advance else c

/-! ## Floating-point values -/

/-- `significand * 10 ^ exponent`, in steps of at most `10 ^ 308`. -/
def scale (c : Cursor) : (fuel : Nat) → (x : Float) → (exponent : Int) → Except Failure Float
  | 0, x, _ => .ok x
  | fuel + 1, x, exponent =>
    if exponent.natAbs ≤ 308 then
      let power := Float.ofScientific 1 false exponent.natAbs
      if 0 ≤ exponent then
        if (x * power).isInf then .error ⟨.numberOutOfRange, c.offset⟩ else .ok (x * power)
      else .ok (x / power)
    else if x == 0.0 then .ok x
    else if 0 ≤ exponent then .error ⟨.numberOutOfRange, c.offset⟩
    else scale c fuel (x / Float.ofScientific 1 false 308) (exponent + 308)

/-- A floating-point number of a sign, a significand and an exponent. -/
def float (positive : Bool) (significand : Nat) (exponent : Int) (c : Cursor) :
    Except Failure (Number × Cursor) := do
  let x ← scale c 4 significand.toUInt64.toFloat exponent
  pure (.float (if positive then x else -x), c)

/-- The largest exponent that is told from a larger one. -/
def maxExponent : Nat := 2147483647

/-- Read an exponent, at its letter. -/
def exponent (positive : Bool) (significand : Nat) (start : Int) (c : Cursor) :
    Except Failure (Number × Cursor) :=
  let c := c.advance
  let up := c.peek? ≠ some '-'
  let c := skipSign c
  match c.peek? with
  | none => .error ⟨.endInValue, c.offset⟩
  | some x =>
    if x.isDigit then
      let digits := c.rest.takeWhile Char.isDigit
      let small := digits.dropWhile (· == '0')
      -- An exponent past 32 bits is zero or too large, whatever the digits that follow.
      let large := (digits.zipIdx.find? fun (_, i) =>
        maxExponent < ofDigits 10 (digits.take (i + 1))).map Prod.snd
      match large with
      | some i =>
        if significand ≠ 0 ∧ up then .error ⟨.numberOutOfRange, c.offset + i + 1⟩
        else .ok (.float (if positive then 0.0 else -0.0), c.skip Char.isDigit)
      | none =>
        let e : Int := ofDigits 10 small
        float positive significand (if up then start + e else start - e) (c.skip Char.isDigit)
    else .error ⟨.invalidNumber, c.offset + 1⟩

/-- Read an exponent if there is one. -/
def exponent? (positive : Bool) (significand : Nat) (start : Int) (c : Cursor) :
    Except Failure (Number × Cursor) :=
  if atExponent c then exponent positive significand start c
  else float positive significand start c

/-! ## Integers and fractions -/

/-- The largest number of 64 bits. -/
def maxSignificand : Nat := UInt64.size - 1

/-- Add digits to a significand while it fits 64 bits; returned are the
significand, the number of digits added and the digits that did not fit. -/
def grow : (significand added : Nat) → List Char → Nat × Nat × List Char
  | s, n, [] => (s, n, [])
  | s, n, x :: rest =>
    if maxSignificand < s * 10 + digitValue x then (s, n, x :: rest)
    else grow (s * 10 + digitValue x) (n + 1) rest

def fraction (positive : Bool) (significand : Nat) (start : Int) (c : Cursor) :
    Except Failure (Number × Cursor) :=
  let c := c.advance
  let digits := c.rest.takeWhile Char.isDigit
  if digits.isEmpty then
    if c.rest.isEmpty then .error ⟨.endInValue, c.offset⟩ else .error ⟨.invalidNumber, c.offset + 1⟩
  else
    let (s, added, _) := grow significand 0 digits
    exponent? positive s (start - added) (c.skip Char.isDigit)

/-- Read what follows the digits of an integer of 64 bits. -/
def integerEnd (positive : Bool) (significand : Nat) (c : Cursor) :
    Except Failure (Number × Cursor) :=
  if c.peek? = some '.' then fraction positive significand 0 c
  else if atExponent c then exponent positive significand 0 c
  else if positive then .ok (.integer significand, c)
  else if significand = 0 ∨ 9223372036854775808 < significand then
    .ok (.float (-significand.toUInt64.toFloat), c)
  else .ok (.integer (-significand), c)

/-- Read a number after its sign. -/
def number (positive : Bool) (c : Cursor) : Except Failure (Number × Cursor) :=
  match c.peek? with
  | none => .error ⟨.endInValue, c.offset⟩
  | some x =>
    if x = '0' then
      let c := c.advance
      if (digit? c).isSome then .error ⟨.invalidNumber, c.offset + 1⟩
      else integerEnd positive 0 c
    else if x.isDigit then
      let digits := c.rest.takeWhile Char.isDigit
      let (s, _, excess) := grow 0 0 digits
      let c := c.skip Char.isDigit
      if excess.isEmpty then integerEnd positive s c
      else if c.peek? = some '.' then fraction positive s excess.length c
      else exponent? positive s excess.length c
    else .error ⟨.invalidNumber, c.offset + 1⟩

/-! ## Skipping -/

/-- Pass an exponent if there is one. -/
def skipExponent (c : Cursor) : Except Failure Cursor :=
  if atExponent c then
    let c := skipSign c.advance
    if (digit? c).isSome then .ok (c.skip Char.isDigit)
    else .error ⟨.invalidNumber, ahead c⟩
  else .ok c

/-- Pass a number after its sign; its size does not matter. -/
def skipNumber (c : Cursor) : Except Failure Cursor := do
  let c ←
    if c.peek? = some '0' then
      let c := c.advance
      if (digit? c).isSome then .error ⟨.invalidNumber, ahead c⟩ else .ok c
    else if (digit? c).isSome then .ok (c.skip Char.isDigit)
    else .error ⟨.invalidNumber, ahead c⟩
  if c.peek? = some '.' then
    let c := c.advance
    if (digit? c).isSome then skipExponent (c.skip Char.isDigit)
    else .error ⟨.invalidNumber, ahead c⟩
  else skipExponent c

end StackRisc.Json
