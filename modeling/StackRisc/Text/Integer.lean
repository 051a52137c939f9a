import StackRisc.Text.Numeral

/-!
# StackRisc.Text.Integer

Whole numbers of a limited range in decimal notation, with an optional sign.
A text is read from left to right, and the first character that is no digit
or that takes the number out of the range decides why it is refused.
-/

namespace StackRisc.Text

/-- Why a text is no number of a range. -/
inductive IntegerError where
  | empty
  | invalidDigit
  | tooLarge
  | tooSmall
  deriving DecidableEq, Repr, Inhabited

def IntegerError.message : IntegerError → String
  | empty => "cannot parse integer from empty string"
  | invalidDigit => "invalid digit found in string"
  | tooLarge => "number too large to fit in target type"
  | tooSmall => "number too small to fit in target type"

/-- Read digits behind a number, which may not grow past a limit. -/
def digitsWithin (limit : Nat) (past : IntegerError) : (n : Nat) → List Char →
    Except IntegerError Nat
  | n, [] => .ok n
  | n, c :: rest =>
    if c.isDigit then
      let n := n * 10 + digitValue c
      if n ≤ limit then digitsWithin limit past n rest else .error past
    else .error .invalidDigit

/-- Read at least one digit. -/
def someDigitsWithin (limit : Nat) (past : IntegerError) (cs : List Char) :
    Except IntegerError Nat :=
  if cs.isEmpty then .error .invalidDigit else digitsWithin limit past 0 cs

def readNatural (limit : Nat) : List Char → Except IntegerError Nat
  | [] => .error .empty
  | '+' :: rest => someDigitsWithin limit .tooLarge rest
  | cs => someDigitsWithin limit .tooLarge cs

/-- Read a number in the range of signed 64-bit integers. -/
def readInteger : List Char → Except IntegerError Int
  | [] => .error .empty
  | '-' :: rest => do
    let n ← someDigitsWithin 9223372036854775808 .tooSmall rest
    pure (-(n : Int))
  | '+' :: rest => do
    let n ← someDigitsWithin 9223372036854775807 .tooLarge rest
    pure (n : Int)
  | cs => do
    let n ← someDigitsWithin 9223372036854775807 .tooLarge cs
    pure (n : Int)

end StackRisc.Text
