/-!
# StackRisc.Word

The three sizes of the machine: bytes, signed 32-bit words and 32-bit
addresses.  A word is stored as four bytes, least significant first, and
turns into an address, and back, by keeping its bits.
-/

namespace StackRisc

abbrev Byte := UInt8

/-- A signed 32-bit value: the contents of the wide accumulator. -/
abbrev Word := Int32

/-- A global address, or an offset in the program. -/
abbrev Address := UInt32

namespace Word

/-! ## Words and addresses -/

/-- The address with the bits of a word. -/
def toAddress (w : Word) : Address := w.toUInt32

/-- The word with the bits of an address. -/
def ofAddress (a : Address) : Word := a.toInt32

/-- Turning a word into an address keeps its bits. -/
theorem ofAddress_toAddress (w : Word) : ofAddress (toAddress w) = w := by
  simp [ofAddress, toAddress]

/-- Turning an address into a word keeps its bits. -/
theorem toAddress_ofAddress (a : Address) : toAddress (ofAddress a) = a := by
  simp [ofAddress, toAddress]

/-! ## Words and bytes -/

/-- A byte as a word, zero-extended. -/
def ofByte (b : Byte) : Word := ofAddress b.toUInt32

/-- The least significant byte of a word. -/
def lowByte (w : Word) : Byte := (toAddress w).toUInt8

def largest : Nat := 2147483647

/-- The byte of a word at a position, counted from the least significant. -/
def byteAt (w : Word) (i : Nat) : Byte := UInt8.ofNat ((toAddress w).toNat >>> (8 * i))

/-- The four bytes of a word, least significant first. -/
def bytes (w : Word) : List Byte := [w.byteAt 0, w.byteAt 1, w.byteAt 2, w.byteAt 3]

/-- The word with four given bytes, least significant first. -/
def ofBytes (b0 b1 b2 b3 : Byte) : Word :=
  ofAddress (UInt32.ofNat (b0.toNat + b1.toNat * 256 + b2.toNat * 65536 + b3.toNat * 16777216))

@[simp] theorem length_bytes (w : Word) : w.bytes.length = 4 := rfl

/-- A byte is the low byte of its word. -/
theorem lowByte_ofByte (b : Byte) : lowByte (ofByte b) = b := by
  simp [lowByte, ofByte, toAddress_ofAddress]

/-! ## Words in a byte list -/

/-- The word whose four bytes start at an index, if they all exist. -/
def read? (data : List Byte) (index : Nat) : Option Word :=
  match data.drop index with
  | b0 :: b1 :: b2 :: b3 :: _ => some (ofBytes b0 b1 b2 b3)
  | _ => none

/-- Overwrite the four bytes from an index with a word, if they all exist. -/
def write? (data : List Byte) (index : Nat) (w : Word) : Option (List Byte) :=
  if index + 4 ≤ data.length then some (data.take index ++ w.bytes ++ data.drop (index + 4))
  else none

end Word

end StackRisc
