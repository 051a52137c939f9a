import StackRisc.CommandLine.Tree
import StackRisc.Text.Integer

/-!
# StackRisc.CommandLine.Number

Numbers as values of arguments.  A number of 64 bits is read as such; one of
32 bits is read as a signed number of 64 bits and must then lie in its range,
so the two refuse a sign and a number that is too large with other words.
-/

namespace StackRisc.CommandLine

def readNumber64 (text : String) : Except Refusal Nat :=
  (Text.readNatural (UInt64.size - 1) text.toList).mapError fun e => .because e.message

def checkNumber32 (n : Int) : Except Refusal Nat :=
  if 0 ≤ n ∧ n < UInt32.size then .ok n.toNat
  else .error (.because (toString n ++ " is not in 0..=" ++ toString (UInt32.size - 1)))

def readNumber32 (text : String) : Except Refusal Nat := do
  let n ← (Text.readInteger text.toList).mapError fun e => Refusal.because e.message
  checkNumber32 n

end StackRisc.CommandLine
