import StackRisc.Arithmetic
import Mathlib.Data.Int.Order.Basic

/-!
# StackRisc.Proofs.Arithmetic

What the arithmetic comes to, as whole numbers.

* `Operation.onBytes`, `Operation.onWords` — what is meant to be computed in
  each width;
* `Operation.toInt_compute_byte`, `Operation.toInt_compute_word` — that it is
  computed;
* `Operation.computeChecked_eq` — no 32-bit operation on bytes leaves the range
  of a word.
-/

namespace StackRisc

/-! ## Words as whole numbers -/

namespace Word

/-- The word with the bits of an address is its number, brought to the range of
words. -/
theorem toInt_ofAddress (x : Address) : (ofAddress x).toInt = (x.toNat : Int).bmod 4294967296 :=
  BitVec.toInt_eq_toNat_bmod x.toBitVec

/-- The raw bits of a word. -/
theorem toNat_toAddress (w : Word) : (w.toAddress.toNat : Int) = w.toInt % 4294967296 := by
  have hlt : w.toAddress.toNat < 4294967296 := w.toAddress.toNat_lt
  have h := toInt_ofAddress w.toAddress
  rw [ofAddress_toAddress] at h
  rw [h, Int.bmod_def]
  split <;> omega

/-- A byte is zero-extended, so no word made of one is negative. -/
theorem toInt_ofByte (b : Byte) : (ofByte b).toInt = b.toNat := by
  have hlt : b.toNat < 256 := b.toNat_lt
  have h := toInt_ofAddress b.toUInt32
  rw [UInt8.toNat_toUInt32] at h
  rw [ofByte, h, Int.bmod_def]
  split <;> omega

/-- A word that is a byte without sign is made of its low byte. -/
theorem ofByte_lowByte {w : Word} (h : 0 ≤ w.toInt ∧ w.toInt ≤ 255) : ofByte w.lowByte = w := by
  have hbits := toNat_toAddress w
  rw [← Int32.toInt_inj, toInt_ofByte, lowByte, UInt32.toNat_toUInt8]
  omega

/-- A number in the range of a word is not wrapped. -/
theorem bmod_eq_self {n : Int} (hlow : -2147483648 ≤ n) (hhigh : n ≤ 2147483647) :
    n.bmod 4294967296 = n := by
  rw [Int.bmod_def]
  split <;> omega

/-- A number as a word, if it is in the range of words. -/
def ofInt? (n : Int) : Option Word :=
  if -2147483648 ≤ n ∧ n ≤ 2147483647 then some (Int32.ofInt n) else none

variable {x y : Word}

theorem ofInt?_eq_some {n : Int} (h : x.toInt = n) : ofInt? n = some x := by
  have hlow := x.le_toInt
  have hhigh := x.toInt_lt
  rw [ofInt?, if_pos (by omega), ← h, Int32.ofInt_toInt]

/-- A sum in the range of words is exact. -/
theorem toInt_add (hlow : -2147483648 ≤ x.toInt + y.toInt)
    (hhigh : x.toInt + y.toInt ≤ 2147483647) : (x + y).toInt = x.toInt + y.toInt :=
  (Int32.toInt_add x y).trans (bmod_eq_self hlow hhigh)

/-- A difference in the range of words is exact. -/
theorem toInt_sub (hlow : -2147483648 ≤ x.toInt - y.toInt)
    (hhigh : x.toInt - y.toInt ≤ 2147483647) : (x - y).toInt = x.toInt - y.toInt :=
  (Int32.toInt_sub x y).trans (bmod_eq_self hlow hhigh)

/-- A product in the range of words is exact. -/
theorem toInt_mul (hlow : -2147483648 ≤ x.toInt * y.toInt)
    (hhigh : x.toInt * y.toInt ≤ 2147483647) : (x * y).toInt = x.toInt * y.toInt :=
  (Int32.toInt_mul x y).trans (bmod_eq_self hlow hhigh)

theorem toInt_max (x y : Word) : (max x y).toInt = max x.toInt y.toInt := by
  show (if x ≤ y then y else x).toInt = _
  rw [apply_ite Int32.toInt, Int.max_def]
  simp only [Int32.le_iff_toInt_le]

theorem toInt_min (x y : Word) : (min x y).toInt = min x.toInt y.toInt := by
  show (if x ≤ y then x else y).toInt = _
  rw [apply_ite Int32.toInt, Int.min_def]
  simp only [Int32.le_iff_toInt_le]

end Word

namespace Arithmetic

/-! ## Operations and what they are meant to compute -/

/-- An operation on the popped value and the accumulator. -/
inductive Operation where
  | add | sub | mul | div | shiftLeft | shiftRight
  deriving DecidableEq, Repr

/-- A number in two's complement of 32 bits. -/
def wrap (n : Int) : Int := n.bmod 4294967296

/-- The raw bits of a number in two's complement of 32 bits. -/
def rawBits (n : Int) : Int := n % 4294967296

/-- Two to the power of a number that is not negative. -/
def twoPow (n : Int) : Int := (Nat.pow 2 n.toNat : Nat)

namespace Operation

/-- What is meant to be computed from bytes. -/
def onBytes : Operation → (a b carry : Int) → Int
  | add, a, b, carry => if 255 < a + b + carry then 0 else a + b + carry
  | sub, a, b, _ => max (a - b) 0
  | mul, a, b, carry => min (a * b * carry) 255
  | div, a, b, _ => a / b
  | shiftLeft, a, b, _ => if 8 ≤ b then 0 else a * twoPow b % 256
  | shiftRight, a, b, _ => if 8 ≤ b then 0 else a / twoPow b

/-- What is meant to be computed from words. -/
def onWords : Operation → (a b carry : Int) → Int
  | add, a, b, carry => wrap (a + b + carry)
  | sub, a, b, _ => wrap (a - b)
  | mul, a, b, carry => wrap (a * b * carry)
  | div, a, b, _ => if a = -2147483648 ∧ b = -1 then -2147483648 else a.tdiv b
  | shiftLeft, a, b, _ =>
    if 32 ≤ rawBits b then 0 else wrap (rawBits a * twoPow (rawBits b))
  | shiftRight, a, b, _ =>
    if 32 ≤ rawBits b then 0 else wrap (rawBits a / twoPow (rawBits b))

/-- What is meant to be computed in a width. -/
def reference (op : Operation) : Width → (a b carry : Int) → Int
  | .byte => op.onBytes
  | .word => op.onWords

/-- What is computed. -/
def compute : Operation → Width → (a b : Word) → (carry : Byte) → Word
  | add, width, a, b, carry => Arithmetic.add width a b carry
  | sub, width, a, b, _ => Arithmetic.sub width a b
  | mul, width, a, b, carry => Arithmetic.mul width a b carry
  | div, width, a, b, _ => Arithmetic.div width a b
  | shiftLeft, width, a, b, _ => Arithmetic.shiftLeft width a b
  | shiftRight, width, a, b, _ => Arithmetic.shiftRight width a b

/-- The computation in byte width with 32-bit operations that fail where the
exact result is no word. -/
def computeChecked : Operation → (a b : Word) → (carry : Byte) → Option Word
  | add, a, b, carry => do
    let sum ← Word.ofInt? (a.toInt + b.toInt)
    let sum ← Word.ofInt? (sum.toInt + (Word.ofByte carry).toInt)
    some (if byteMax < sum then 0 else sum)
  | sub, a, b, _ => do
    let difference ← Word.ofInt? (a.toInt - b.toInt)
    some (max difference 0)
  | mul, a, b, carry => do
    let product ← Word.ofInt? (a.toInt * b.toInt)
    let product ← Word.ofInt? (product.toInt * (Word.ofByte carry).toInt)
    some (max 0 (min product byteMax))
  | div, a, b, _ => do
    let quotient ← Word.ofInt? (a.toInt.tdiv b.toInt)
    some (max quotient 0)
  | shiftLeft, a, b, _ => some (Arithmetic.shiftLeft .byte a b)
  | shiftRight, a, b, _ => some (Arithmetic.shiftRight .byte a b)

/-! ## In byte width -/

variable {a b : Word} {carry : Byte} {op : Operation}

/-- No sum of two bytes leaves the range of words. -/
theorem toInt_sum (a b : Byte) :
    (Word.ofByte a + Word.ofByte b).toInt = (a.toNat : Int) + b.toNat := by
  have ha := a.toNat_lt
  have hb := b.toNat_lt
  rw [Word.toInt_add] <;> rw [Word.toInt_ofByte, Word.toInt_ofByte] <;> omega

/-- Nor does a sum of two bytes and the carry. -/
theorem toInt_sum₃ (a b carry : Byte) :
    (Word.ofByte a + Word.ofByte b + Word.ofByte carry).toInt =
      (a.toNat : Int) + b.toNat + carry.toNat := by
  have ha := a.toNat_lt
  have hb := b.toNat_lt
  have hc := carry.toNat_lt
  rw [Word.toInt_add] <;> rw [toInt_sum, Word.toInt_ofByte] <;> omega

/-- No difference of two bytes leaves the range of words. -/
theorem toInt_difference (a b : Byte) :
    (Word.ofByte a - Word.ofByte b).toInt = (a.toNat : Int) - b.toNat := by
  have ha := a.toNat_lt
  have hb := b.toNat_lt
  rw [Word.toInt_sub] <;> rw [Word.toInt_ofByte, Word.toInt_ofByte] <;> omega

theorem product_bounds (a b : Byte) :
    0 ≤ (a.toNat : Int) * b.toNat ∧ (a.toNat : Int) * b.toNat ≤ 65025 := by
  have hle : a.toNat * b.toNat ≤ 65025 :=
    Nat.mul_le_mul (Nat.le_of_lt_succ a.toNat_lt) (Nat.le_of_lt_succ b.toNat_lt)
  rw [← Int.natCast_mul]
  omega

theorem product₃_bounds (a b carry : Byte) :
    0 ≤ (a.toNat : Int) * b.toNat * carry.toNat ∧
      (a.toNat : Int) * b.toNat * carry.toNat ≤ 16581375 := by
  have hproduct := product_bounds a b
  have hle : a.toNat * b.toNat * carry.toNat ≤ 65025 * 255 :=
    Nat.mul_le_mul (by omega) (Nat.le_of_lt_succ carry.toNat_lt)
  rw [← Int.natCast_mul, ← Int.natCast_mul]
  omega

/-- No product of two bytes leaves the range of words. -/
theorem toInt_product (a b : Byte) :
    (Word.ofByte a * Word.ofByte b).toInt = (a.toNat : Int) * b.toNat := by
  have hbounds := product_bounds a b
  rw [Word.toInt_mul] <;> rw [Word.toInt_ofByte, Word.toInt_ofByte] <;> omega

/-- Nor does a product of two bytes and the carry. -/
theorem toInt_product₃ (a b carry : Byte) :
    (Word.ofByte a * Word.ofByte b * Word.ofByte carry).toInt =
      (a.toNat : Int) * b.toNat * carry.toNat := by
  have hbounds := product₃_bounds a b carry
  rw [Word.toInt_mul] <;> rw [toInt_product, Word.toInt_ofByte] <;> omega

theorem toInt_quotient (a b : Byte) :
    (Word.ofByte a / Word.ofByte b).toInt = (a.toNat : Int) / b.toNat := by
  have hmin : Word.ofByte a ≠ Int32.minValue := by
    intro h
    have hvalue := Word.toInt_ofByte a
    rw [h, Int32.toInt_minValue] at hvalue
    omega
  rw [Int32.toInt_div_of_ne_left _ _ hmin, Word.toInt_ofByte, Word.toInt_ofByte,
    Int.tdiv_eq_ediv_of_nonneg (Int.natCast_nonneg _)]

/-- No 32-bit operation on bytes leaves the range of a word. -/
theorem computeChecked_eq (a b carry : Byte) :
    op.computeChecked (Word.ofByte a) (Word.ofByte b) carry =
      some (op.compute .byte (Word.ofByte a) (Word.ofByte b) carry) := by
  cases op with
  | add =>
      simp only [computeChecked, Word.toInt_ofByte, Option.bind_eq_bind,
        Word.ofInt?_eq_some (toInt_sum a b), Option.bind_some, toInt_sum,
        Word.ofInt?_eq_some (toInt_sum₃ a b carry)]
      rfl
  | sub =>
      simp only [computeChecked, Word.toInt_ofByte, Option.bind_eq_bind,
        Word.ofInt?_eq_some (toInt_difference a b), Option.bind_some]
      rfl
  | mul =>
      simp only [computeChecked, Word.toInt_ofByte, Option.bind_eq_bind,
        Word.ofInt?_eq_some (toInt_product a b), Option.bind_some, toInt_product,
        Word.ofInt?_eq_some (toInt_product₃ a b carry)]
      rfl
  | div =>
      simp only [computeChecked, Word.toInt_ofByte, Option.bind_eq_bind,
        Int.tdiv_eq_ediv_of_nonneg (Int.natCast_nonneg _),
        Word.ofInt?_eq_some (toInt_quotient a b), Option.bind_some]
      rfl
  | shiftLeft | shiftRight => rfl

theorem toInt_byteMax : byteMax.toInt = 255 := by decide

theorem toNat_toAddress_ofByte (b : Byte) : (Word.ofByte b).toAddress.toNat = b.toNat := by
  rw [Word.ofByte, Word.toAddress_ofAddress, UInt8.toNat_toUInt32]

/-- Bits are fitted to a byte by keeping the lowest eight. -/
theorem toInt_fit_byte (bits : Address) : (fit .byte bits).toInt = (bits.toNat % 256 : Nat) := by
  rw [fit, Word.toInt_ofByte, UInt32.toNat_toUInt8]

/-- A byte is shifted to the left as a number modulo 256, and is lost from eight
bits on. -/
theorem toInt_shiftLeft_byte (a b : Byte) :
    (Arithmetic.shiftLeft .byte (Word.ofByte a) (Word.ofByte b)).toInt =
      if 8 ≤ (b.toNat : Int) then 0 else a.toNat * twoPow b.toNat % 256 := by
  rw [Arithmetic.shiftLeft, Width.bits, toNat_toAddress_ofByte]
  split
  · next h => rw [if_pos (by omega), Int32.toInt_zero]
  · next h =>
    have hmod : b.toNat % 32 = b.toNat := Nat.mod_eq_of_lt (by omega)
    rw [if_neg (by omega), toInt_fit_byte, UInt32.toNat_shiftLeft, toNat_toAddress_ofByte,
      toNat_toAddress_ofByte, hmod, Nat.shiftLeft_eq, Nat.mod_mod_of_dvd _ (by decide)]
    rfl

/-- A byte is shifted to the right by division. -/
theorem toInt_shiftRight_byte (a b : Byte) :
    (Arithmetic.shiftRight .byte (Word.ofByte a) (Word.ofByte b)).toInt =
      if 8 ≤ (b.toNat : Int) then 0 else a.toNat / twoPow b.toNat := by
  rw [Arithmetic.shiftRight, Width.bits, toNat_toAddress_ofByte]
  split
  · next h => rw [if_pos (by omega), Int32.toInt_zero]
  · next h =>
    have hmod : b.toNat % 32 = b.toNat := Nat.mod_eq_of_lt (by omega)
    have hlt : a.toNat >>> b.toNat < 256 := by
      rw [Nat.shiftRight_eq_div_pow]
      exact Nat.lt_of_le_of_lt (Nat.div_le_self _ _) a.toNat_lt
    rw [if_neg (by omega), toInt_fit_byte, UInt32.toNat_shiftRight, toNat_toAddress_ofByte,
      toNat_toAddress_ofByte, hmod, Nat.mod_eq_of_lt hlt, Nat.shiftRight_eq_div_pow]
    rfl

/-- What is meant to be computed from bytes is computed. -/
theorem toInt_compute_byte (a b carry : Byte) :
    (op.compute .byte (Word.ofByte a) (Word.ofByte b) carry).toInt =
      op.onBytes a.toNat b.toNat carry.toNat := by
  cases op with
  | add =>
      simp only [compute, Arithmetic.add, onBytes]
      rw [apply_ite Int32.toInt, toInt_sum₃]
      simp only [Int32.lt_iff_toInt_lt, toInt_byteMax, toInt_sum₃]
      rfl
  | sub =>
      simp only [compute, Arithmetic.sub, onBytes]
      rw [Word.toInt_max, toInt_difference, Int32.toInt_zero]
  | mul =>
      have hbounds := product₃_bounds a b carry
      simp only [compute, Arithmetic.mul, onBytes]
      rw [Word.toInt_max, Word.toInt_min, toInt_product₃, toInt_byteMax, Int32.toInt_zero]
      omega
  | div =>
      have hnonneg : 0 ≤ (a.toNat : Int) / b.toNat :=
        Int.ediv_nonneg (Int.natCast_nonneg _) (Int.natCast_nonneg _)
      simp only [compute, Arithmetic.div, onBytes]
      rw [Word.toInt_max, toInt_quotient, Int32.toInt_zero, Int.max_eq_left hnonneg]
  | shiftLeft => exact toInt_shiftLeft_byte a b
  | shiftRight => exact toInt_shiftRight_byte a b

theorem twoPow_pos (n : Int) : 0 < twoPow n := Int.ofNat_lt.mpr (Nat.two_pow_pos n.toNat)

/-- What is meant to be computed from bytes is a byte. -/
theorem onBytes_bounds (a b carry : Byte) :
    0 ≤ op.onBytes a.toNat b.toNat carry.toNat ∧ op.onBytes a.toNat b.toNat carry.toNat ≤ 255 := by
  have ha := a.toNat_lt
  cases op with
  | add =>
      rw [onBytes]
      split <;> omega
  | sub =>
      rw [onBytes]
      omega
  | mul =>
      have hbounds := product₃_bounds a b carry
      rw [onBytes]
      omega
  | div =>
      have hle := Int.ediv_le_self (b.toNat : Int) (Int.natCast_nonneg a.toNat)
      exact ⟨Int.ediv_nonneg (Int.natCast_nonneg _) (Int.natCast_nonneg _), by
        rw [onBytes]
        omega⟩
  | shiftLeft =>
      rw [onBytes]
      split
      · decide
      · omega
  | shiftRight =>
      have hpos := twoPow_pos b.toNat
      have hle := Int.ediv_le_self (twoPow b.toNat) (Int.natCast_nonneg a.toNat)
      have hnonneg := Int.ediv_nonneg (Int.natCast_nonneg a.toNat) (Int.le_of_lt hpos)
      rw [onBytes]
      split
      · decide
      · omega

/-! ## In word width -/

/-- Words are divided towards zero; the one quotient out of range wraps. -/
theorem toInt_div_word (a b : Word) :
    (a / b).toInt =
      if a.toInt = -2147483648 ∧ b.toInt = -1 then -2147483648 else a.toInt.tdiv b.toInt := by
  split
  · next h =>
    rw [Int32.toInt_div, h.1, h.2]
    rfl
  · next h =>
    rw [not_and_or] at h
    rcases h with h | h
    · exact Int32.toInt_div_of_ne_left _ _ fun hmin => h (by rw [hmin]; rfl)
    · exact Int32.toInt_div_of_ne_right _ _ fun hneg => h (by rw [hneg]; rfl)

/-- The bits of a word are shifted to the left as a number without sign. -/
theorem toInt_shiftLeft_word (a b : Word) :
    (Arithmetic.shiftLeft .word a b).toInt =
      if 32 ≤ rawBits b.toInt then 0
      else wrap (rawBits a.toInt * twoPow (rawBits b.toInt)) := by
  rw [Arithmetic.shiftLeft, Width.bits, rawBits, rawBits, ← Word.toNat_toAddress,
    ← Word.toNat_toAddress]
  split
  · next h => rw [if_pos (by omega), Int32.toInt_zero]
  · next h =>
    have hmod : b.toAddress.toNat % 32 = b.toAddress.toNat := Nat.mod_eq_of_lt (by omega)
    rw [if_neg (by omega), fit, Word.toInt_ofAddress, UInt32.toNat_shiftLeft, hmod,
      Nat.shiftLeft_eq, Int.natCast_emod, Int.emod_bmod]
    rfl

/-- The bits of a word are shifted to the right without regard to its sign. -/
theorem toInt_shiftRight_word (a b : Word) :
    (Arithmetic.shiftRight .word a b).toInt =
      if 32 ≤ rawBits b.toInt then 0
      else wrap (rawBits a.toInt / twoPow (rawBits b.toInt)) := by
  rw [Arithmetic.shiftRight, Width.bits, rawBits, rawBits, ← Word.toNat_toAddress,
    ← Word.toNat_toAddress]
  split
  · next h => rw [if_pos (by omega), Int32.toInt_zero]
  · next h =>
    have hmod : b.toAddress.toNat % 32 = b.toAddress.toNat := Nat.mod_eq_of_lt (by omega)
    rw [if_neg (by omega), fit, Word.toInt_ofAddress, UInt32.toNat_shiftRight, hmod,
      Nat.shiftRight_eq_div_pow]
    rfl

/-- What is meant to be computed from words is computed. -/
theorem toInt_compute_word (a b : Word) (carry : Byte) :
    (op.compute .word a b carry).toInt = op.onWords a.toInt b.toInt carry.toNat := by
  cases op with
  | add =>
      show (a + b + Word.ofByte carry).toInt = wrap (a.toInt + b.toInt + carry.toNat)
      rw [Int32.toInt_add, Int32.toInt_add, Int.bmod_add_bmod, Word.toInt_ofByte]
      rfl
  | sub => exact Int32.toInt_sub a b
  | mul =>
      show (a * b * Word.ofByte carry).toInt = wrap (a.toInt * b.toInt * carry.toNat)
      rw [Int32.toInt_mul, Int32.toInt_mul, Int.bmod_mul_bmod, Word.toInt_ofByte]
      rfl
  | div => exact toInt_div_word a b
  | shiftLeft => exact toInt_shiftLeft_word a b
  | shiftRight => exact toInt_shiftRight_word a b

end Operation

/-- Without a carry a product is zero. -/
theorem mul_carry_zero (width : Width) (a b : Word) : Arithmetic.mul width a b 0 = 0 := by
  have hzero : a * b * Word.ofByte 0 = 0 := Int32.mul_zero
  cases width with
  | byte =>
      simp only [Arithmetic.mul, hzero]
      rfl
  | word => simp only [Arithmetic.mul, hzero]

end Arithmetic

end StackRisc
