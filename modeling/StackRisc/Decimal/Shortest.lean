/-!
# StackRisc.Decimal.Shortest

The fewest decimal digits that read back as a binary floating-point number.
A finite number is `m * 2 ^ q`; the reals that round to it form an interval,
whose ends belong to it when `m` is even.  On the coarsest decimal grid that
meets the interval, the point nearest to the number is taken.
-/

namespace StackRisc.Decimal

/-- A positive number and the interval of the reals that round to it, all
three as multiples of `2 ^ exponent`. -/
structure Rounding where
  low : Nat
  value : Nat
  high : Nat
  exponent : Int
  closed : Bool

/-- What the leading bit of a significand counts. -/
def implicitBit : Nat := 4503599627370496

/-- The bit that tells a negative number. -/
def signBit : Nat := 9223372036854775808

/-- The interval of the finite positive number with some bits. -/
def Rounding.ofBits (bits : UInt64) : Rounding :=
  let fraction := bits.toNat % implicitBit
  let biased : Nat := bits.toNat / implicitBit % 2048
  let m := if biased = 0 then fraction else fraction + implicitBit
  let q : Int := (max biased 1 : Nat) - 1075
  { low := 4 * m - (if fraction = 0 ∧ 1 < biased then 1 else 2)
    value := 4 * m
    high := 4 * m + 2
    exponent := q - 2
    closed := m % 2 = 0 }

/-- Both sides of comparing `d * 10 ^ k` with `s * 2 ^ q`, without fractions. -/
def sides (d : Nat) (k : Int) (s : Nat) (q : Int) : Nat × Nat :=
  ((d * Nat.pow 10 k.toNat) <<< (-q).toNat, (s * Nat.pow 10 (-k).toNat) <<< q.toNat)

/-- Whether `d * 10 ^ k` reads back as the number. -/
def Rounding.contains (r : Rounding) (d : Nat) (k : Int) : Bool :=
  let (x, low) := sides d k r.low r.exponent
  let (_, high) := sides d k r.high r.exponent
  if r.closed then low ≤ x && x ≤ high else low < x && x < high

/-- The point of the grid of `10 ^ k` nearest to the number, the even one of
two, if a point of the grid reads back. -/
def Rounding.onGrid? (r : Rounding) (k : Int) : Option Nat :=
  let (unit, v) := sides 1 k r.value r.exponent
  let d := v / unit
  let below := r.contains d k
  let above := r.contains (d + 1) k
  if below && above then
    let twice := 2 * (v - d * unit)
    some (if twice < unit ∨ (twice = unit ∧ d % 2 = 0) then d else d + 1)
  else if below then some d
  else if above then some (d + 1)
  else none

/-- The coarsest grid, from `10 ^ k` down, on which the number reads back. -/
def Rounding.search (r : Rounding) : (fuel : Nat) → (k : Int) → Nat × Int
  | 0, k => (0, k)
  | fuel + 1, k =>
    match r.onGrid? k with
    | some d => (d, k)
    | none => r.search fuel (k - 1)

/-- Digits and exponent of the shortest text of a finite positive number. -/
def shortest (bits : UInt64) : Nat × Int := (Rounding.ofBits bits).search 660 310

/-- A finite number as text: positional between `1e-5` and `1e16`, with a
point, and with a signed exponent outside. -/
def text (x : Float) : String :=
  let bits := x.toBits
  let sign := if signBit ≤ bits.toNat then "-" else ""
  let magnitude := UInt64.ofNat (bits.toNat % signBit)
  if magnitude = 0 then sign ++ "0.0"
  else
    let (d, k) := shortest magnitude
    let digits := Nat.toDigits 10 d
    let n := digits.length
    let point := (n : Int) + k
    let zeros (count : Int) : List Char := List.replicate count.toNat '0'
    let body : List Char :=
      if 0 ≤ k ∧ point ≤ 16 then digits ++ zeros k ++ ['.', '0']
      else if 0 < point ∧ point ≤ 16 then
        digits.take point.toNat ++ '.' :: digits.drop point.toNat
      else if -5 < point ∧ point ≤ 0 then '0' :: '.' :: zeros (-point) ++ digits
      else
        let exponent := 'e' :: (if 1 ≤ point then ['+'] else []) ++ (toString (point - 1)).toList
        match digits with
        | [only] => only :: exponent
        | first :: rest => first :: '.' :: rest ++ exponent
        | [] => exponent
    sign ++ String.ofList body

end StackRisc.Decimal
