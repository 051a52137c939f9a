import StackRisc.Listing
import StackRisc.Proofs.Arithmetic

/-!
# StackRisc.Proofs.Encoding

Reading instructions back from their bytes:

* `Word.ofBytes_byteAt`, `Word.bytes_ofBytes` — a word is put together from its
  four bytes, and has these bytes;
* `Word.bytes_eq_littleEndian` — they are its digits to base 256;
* `Instruction.encode_eq` — every encoding is an operation code and, where it
  takes one, an operand;
* `Listing.operand_bytes` — the operand at the front of a longer list.
-/

namespace StackRisc

/-! ## Words -/

/-- The digits of a word add up to its number. -/
theorem Word.sum_byteAt (w : Word) :
    (w.byteAt 0).toNat + (w.byteAt 1).toNat * 256 + (w.byteAt 2).toNat * 65536 +
      (w.byteAt 3).toNat * 16777216 = w.toAddress.toNat := by
  have hlt : w.toAddress.toNat < 4294967296 := w.toAddress.toNat_lt
  simp only [byteAt, UInt8.toNat_ofNat', Nat.shiftRight_eq_div_pow]
  omega

/-- A word is put together from its four bytes. -/
theorem Word.ofBytes_byteAt (w : Word) :
    Word.ofBytes (w.byteAt 0) (w.byteAt 1) (w.byteAt 2) (w.byteAt 3) = w := by
  rw [ofBytes, sum_byteAt, UInt32.ofNat_toNat, ofAddress_toAddress]

/-- A word put together from four bytes has these bytes. -/
theorem Word.bytes_ofBytes (b0 b1 b2 b3 : Byte) :
    (ofBytes b0 b1 b2 b3).bytes = [b0, b1, b2, b3] := by
  have h0 := b0.toNat_lt
  have h1 := b1.toNat_lt
  have h2 := b2.toNat_lt
  have h3 := b3.toNat_lt
  have hsum : (ofBytes b0 b1 b2 b3).toAddress.toNat =
      b0.toNat + b1.toNat * 256 + b2.toNat * 65536 + b3.toNat * 16777216 := by
    rw [ofBytes, toAddress_ofAddress]
    exact UInt32.toNat_ofNat_of_lt' (by show _ < 4294967296; omega)
  have hbyte : ∀ (i : Nat) (b : Byte),
      ((ofBytes b0 b1 b2 b3).toAddress.toNat / 2 ^ (8 * i)) % 256 = b.toNat →
        (ofBytes b0 b1 b2 b3).byteAt i = b := by
    intro i b h
    rw [byteAt, Nat.shiftRight_eq_div_pow]
    refine UInt8.toNat_inj.mp ?_
    rw [UInt8.toNat_ofNat', ← h]
  rw [bytes, hbyte 0 b0 (by rw [hsum]; omega), hbyte 1 b1 (by rw [hsum]; omega),
    hbyte 2 b2 (by rw [hsum]; omega), hbyte 3 b3 (by rw [hsum]; omega)]

/-- The four bytes of a number below 4294967296, the least significant first:
its digits to base 256. -/
def littleEndian (n : Nat) : List Byte :=
  [n, n / 256, n / 65536, n / 16777216].map UInt8.ofNat

/-- A word is stored as the digits of its address. -/
theorem Word.bytes_eq_littleEndian (w : Word) : w.bytes = littleEndian w.toAddress.toNat := by
  simp [bytes, byteAt, Nat.shiftRight_eq_div_pow, littleEndian]

/-- A word that is not negative is stored as the digits of its number. -/
theorem Word.bytes_of_nonneg {w : Word} (h : 0 ≤ w.toInt) :
    w.bytes = littleEndian w.toInt.toNat := by
  have hbits : (w.toAddress.toNat : Int) = w.toInt := by
    rw [toNat_toAddress]
    exact Int.emod_eq_of_lt h (Int.lt_of_le_of_lt w.toInt_le (by decide))
  rw [bytes_eq_littleEndian, ← hbits, Int.toNat_natCast]

namespace Instruction

/-! ## Operands -/

/-- The operand of an instruction, zero where there is none. -/
def operand : Instruction → Word
  | bge target => Word.ofAddress target
  | ldi value => value
  | _ => 0

/-- An instruction is put together from its operation code and its operand. -/
theorem ofOpcode_operand (i : Instruction) : ofOpcode i.opcode i.operand = i := by
  cases i with
  | bge target => exact congrArg bge (Word.toAddress_ofAddress target)
  | _ => rfl

theorem operand_eq_zero {i : Instruction} (h : i.opcode.hasOperand = false) : i.operand = 0 := by
  cases i with
  | bge target => contradiction
  | ldi value => contradiction
  | _ => rfl

/-- The bytes after the operation code. -/
def operandBytes (i : Instruction) : List Byte :=
  if i.opcode.hasOperand then i.operand.bytes else []

theorem operandBytes_ofOpcode (op : Opcode) (w : Word) :
    (ofOpcode op w).operandBytes = if op.hasOperand then w.bytes else [] := by
  cases op with
  | bge => exact congrArg Word.bytes (Word.ofAddress_toAddress w)
  | _ => rfl

/-- An instruction is encoded as its operation code and its operand bytes. -/
theorem encode_eq (i : Instruction) : i.encode = i.opcode.byte :: i.operandBytes := by
  cases i <;> rfl

/-- An instruction is encoded as its operation code, followed by the digits of
its operand if it takes one. -/
theorem encode_eq_littleEndian (i : Instruction) :
    i.encode = i.opcode.byte ::
      if i.opcode.hasOperand then littleEndian i.operand.toAddress.toNat else [] := by
  rw [encode_eq, operandBytes, Word.bytes_eq_littleEndian]

theorem size_eq (i : Instruction) : i.size = i.operandBytes.length + 1 := by
  rw [← length_encode, encode_eq, List.length_cons]

theorem size_ofOpcode (op : Opcode) (w : Word) : (ofOpcode op w).size = op.size := by
  rw [size, opcode_ofOpcode]

theorem size_pos (i : Instruction) : 0 < i.size := by
  rw [size_eq]
  exact Nat.succ_pos _

end Instruction

namespace Listing

/-! ## Reading back -/

/-- The operand at the front of a list that goes on. -/
theorem operand_bytes (w : Word) (rest : List Byte) : operand (w.bytes ++ rest) = w :=
  Word.ofBytes_byteAt w

/-- The operand at the front of a list is made of its first four bytes. -/
theorem bytes_operand (bytes : List Byte) :
    (operand bytes).bytes = (List.range 4).map fun k => bytes.getD k 0 :=
  Word.bytes_ofBytes _ _ _ _

/-- A list that is long enough for an operand starts with its bytes. -/
theorem bytes_operand_append {bytes : List Byte} (h : 4 ≤ bytes.length) :
    (operand bytes).bytes ++ bytes.drop 4 = bytes := by
  match bytes, h with
  | b0 :: b1 :: b2 :: b3 :: rest, _ => 
      show (Word.ofBytes b0 b1 b2 b3).bytes ++ rest = _
      rw [Word.bytes_ofBytes]
      rfl

/-- An instruction is made of its operation code and what follows it. -/
theorem ofOpcode_operandBytes (i : Instruction) (rest : List Byte) :
    Instruction.ofOpcode i.opcode
      (if i.opcode.hasOperand then operand (i.operandBytes ++ rest) else 0) = i := by
  have hword : (if i.opcode.hasOperand then operand (i.operandBytes ++ rest) else 0) =
      i.operand := by
    unfold Instruction.operandBytes
    split
    · exact operand_bytes _ _
    · next h => exact (Instruction.operand_eq_zero (Bool.not_eq_true _ ▸ h)).symm
  rw [hword, i.ofOpcode_operand]

end Listing

end StackRisc
