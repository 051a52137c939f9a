import StackRisc.Text.Blank

/-!
# StackRisc.Text.Cursor

A place in a text: what is still to be read, and the number of bytes that
were read before it.
-/

namespace StackRisc.Text

/-- The part of a text that is still to be read, with the number of bytes
before it. -/
structure Cursor where
  offset : Nat
  rest : List Char
  deriving DecidableEq, Repr, Inhabited

namespace Cursor

def ofText (text : List Char) : Cursor := ⟨0, text⟩

def peek? (c : Cursor) : Option Char := c.rest.head?

def advance (c : Cursor) : Cursor :=
  match c.rest with
  | x :: rest => ⟨c.offset + x.utf8Size, rest⟩
  | [] => c

/-- Pass the longest run of characters of a class. -/
def skip (p : Char → Bool) (c : Cursor) : Cursor :=
  ⟨c.offset + utf8Size (c.rest.takeWhile p), c.rest.dropWhile p⟩

/-- Pass one given character. -/
def char? (ch : Char) (c : Cursor) : Option Cursor :=
  match c.rest with
  | x :: rest => if x = ch then some ⟨c.offset + ch.utf8Size, rest⟩ else none
  | [] => none

end Cursor

end StackRisc.Text
