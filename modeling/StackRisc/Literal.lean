import StackRisc.Text.Letter
import StackRisc.Text.Numeral

/-!
# StackRisc.Literal

Operands as they are written: a hexadecimal number behind `$` or `@`, a
decimal number behind `#`, or the name of a label or a variable.  Numbers
past the 64-bit range are brought to its nearer end, so every digit string
is a literal and the range check that follows still refuses it.
-/

namespace StackRisc

/-- What an operand token says. -/
inductive Literal where
  | hex (value : Int)
  | decimal (value : Int)
  | reference (name : String)
  deriving DecidableEq, Repr, Inhabited

namespace Literal

open Text

def number? : Literal → Option Int
  | hex value => some value
  | decimal value => some value
  | reference _ => none

/-! ## Reading -/

/-- Read `$` or `@` and at least one hexadecimal digit. -/
def scanHex : List Char → Option (Literal × List Char)
  | c :: cs =>
    let digits := cs.takeWhile isHexDigit
    if (c == '$' || c == '@') && !digits.isEmpty then
      some (hex (saturate (ofDigits 16 digits)), cs.dropWhile isHexDigit)
    else none
  | [] => none

/-- The sign in front of a decimal number, and what follows it. -/
def scanSign : List Char → Int × List Char
  | '-' :: cs => (-1, cs)
  | '+' :: cs => (1, cs)
  | cs => (1, cs)

/-- Read `#`, an optional sign and at least one decimal digit. -/
def scanDecimal : List Char → Option (Literal × List Char)
  | '#' :: cs =>
    let (sign, cs) := scanSign cs
    let digits := cs.takeWhile Char.isDigit
    if digits.isEmpty then none
    else some (decimal (saturate (sign * ofDigits 10 digits)), cs.dropWhile Char.isDigit)
  | _ => none

/-- Read a name of at least one character. -/
def scanName (cs : List Char) : Option (Literal × List Char) :=
  let name := cs.takeWhile isNameChar
  if name.isEmpty then none
  else some (reference (String.ofList name), cs.dropWhile isNameChar)

/-- Read the longest literal at the front of a text; the rest is returned. -/
def scan (cs : List Char) : Option (Literal × List Char) :=
  scanHex cs <|> scanDecimal cs <|> scanName cs

/-- Read a text that is one literal and nothing else. -/
def read? (cs : List Char) : Option Literal :=
  match scan cs with
  | some (literal, []) => some literal
  | _ => none

end Literal

end StackRisc
