import StackRisc.Instruction

/-!
# StackRisc.Listing

The listing of a program image: every instruction with its offset, from
offset 0 to the last byte that is not zero.  An operand that is cut by the
end of the image is filled with zeros, and a byte that is no operation code
is listed alone.
-/

namespace StackRisc

/-- One line of a listing: an instruction, or the byte that is none. -/
structure ListingEntry where
  offset : Nat
  content : Except Byte Instruction
  deriving Repr

namespace ListingEntry

def size (e : ListingEntry) : Nat :=
  match e.content with
  | .ok i => i.size
  | .error _ => 1

def bytes (e : ListingEntry) : List Byte :=
  match e.content with
  | .ok i => i.encode
  | .error b => [b]

end ListingEntry

namespace Listing

/-- An image without the zeros at its end. -/
def trimZeros (image : List Byte) : List Byte :=
  (image.reverse.dropWhile (· == 0)).reverse

/-- The four bytes at the front of a list, zeros where it is too short. -/
def operand (bytes : List Byte) : Word :=
  Word.ofBytes (bytes.getD 0 0) (bytes.getD 1 0) (bytes.getD 2 0) (bytes.getD 3 0)

/-- List at most `fuel` entries of a program without zeros at its end. -/
def walk : (fuel : Nat) → (offset : Nat) → List Byte → List ListingEntry
  | 0, _, _ => []
  | _, _, [] => []
  | fuel + 1, offset, b :: rest =>
    match Opcode.ofByte? b with
    | some op =>
      let i := Instruction.ofOpcode op (if op.hasOperand then operand rest else 0)
      ⟨offset, .ok i⟩ :: walk fuel (offset + i.size) (rest.drop (i.size - 1))
    | none => ⟨offset, .error b⟩ :: walk fuel (offset + 1) rest

/-- The listing of an image.  Every entry takes at least one byte, so there
are never more entries than bytes. -/
def ofImage (image : List Byte) : List ListingEntry :=
  walk (trimZeros image).length 0 (trimZeros image)

end Listing

end StackRisc
