import StackRisc.Cpu

/-!
# StackRisc.Arithmetic

What the arithmetic instructions compute from a popped value `a`, the
accumulator `b` and the carry.  In byte width both operands are zero-extended
bytes and the result is brought back to a byte, each operation in its own
way; in word width the arithmetic is that of 32-bit two's complement.
-/

namespace StackRisc.Arithmetic

/-- The largest value of a byte, as a word. -/
def byteMax : Word := 255

/-- `a + b + carry`; in byte width a sum that is no byte becomes zero. -/
def add (width : Width) (a b : Word) (carry : Byte) : Word :=
  let sum := a + b + Word.ofByte carry
  match width with
  | .byte => if byteMax < sum then 0 else sum
  | .word => sum

/-- `a - b`; in byte width a negative difference becomes zero. -/
def sub (width : Width) (a b : Word) : Word :=
  match width with
  | .byte => max (a - b) 0
  | .word => a - b

/-- `a * b * carry`; in byte width brought into the range of a byte. -/
def mul (width : Width) (a b : Word) (carry : Byte) : Word :=
  let product := a * b * Word.ofByte carry
  match width with
  | .byte => max 0 (min product byteMax)
  | .word => product

/-- `a / b` rounded toward zero; the caller has seen that `b` is not zero. -/
def div (width : Width) (a b : Word) : Word :=
  match width with
  | .byte => max (a / b) 0
  | .word => a / b

/-- The bits of a word brought back to a width. -/
def fit (width : Width) (bits : Address) : Word :=
  match width with
  | .byte => Word.ofByte bits.toUInt8
  | .word => Word.ofAddress bits

/-- The bits of `a` shifted left by `b`; zero if `b`, taken without sign, is
the width or more. -/
def shiftLeft (width : Width) (a b : Word) : Word :=
  if width.bits ≤ b.toAddress.toNat then 0 else fit width (a.toAddress <<< b.toAddress)

/-- The bits of `a` shifted right by `b`; zero if `b`, taken without sign,
is the width or more. -/
def shiftRight (width : Width) (a b : Word) : Word :=
  if width.bits ≤ b.toAddress.toNat then 0 else fit width (a.toAddress >>> b.toAddress)

end StackRisc.Arithmetic
