import StackRisc.Literal
import StackRisc.Symbols
import StackRisc.Text.Blank

/-!
# StackRisc.Debugger.Argument

Addresses as they are typed in the debugger: a number in the notation of the
assembler, or the name of a label or a variable.
-/

namespace StackRisc.Debugger

inductive Argument where
  /-- A global address. -/
  | number (n : Int)
  /-- A label or a variable, in upper case. -/
  | name (text : String)
  deriving DecidableEq, Repr, Inhabited

/-- A text that is no address: what could not be read. -/
structure ArgumentError where
  unread : String
  deriving DecidableEq, Repr, Inhabited

def ArgumentError.message (e : ArgumentError) : String :=
  "could not parse address: unexpected input at \"" ++ e.unread ++ "\""

/-- Why an address has no value. -/
inductive ResolveError where
  | outOfRange (n : Int)
  | unknown (name : String)
  deriving DecidableEq, Repr, Inhabited

def ResolveError.message : ResolveError → String
  | outOfRange n => toString n ++ " is not a valid address"
  | unknown name => "unknown symbol " ++ name

namespace Argument

def ofLiteral : Literal → Argument
  | .hex n => number n
  | .decimal n => number n
  | .reference text => name text

/-- Read an address.  Blanks around it and the case of ASCII letters do not
matter; nothing else may stand beside it. -/
def ofText (text : String) : Except ArgumentError Argument :=
  let cs := Text.upper (Text.trim text.toList)
  match Literal.scan cs with
  | some (literal, []) => .ok (ofLiteral literal)
  | some (_, rest) => .error ⟨String.ofList rest⟩
  | none => .error ⟨String.ofList cs⟩

def addressOf (n : Int) : Except ResolveError Address :=
  if 0 ≤ n ∧ n < UInt32.size then .ok (UInt32.ofNat n.toNat) else .error (.outOfRange n)

/-- The address that an argument stands for.  Labels count from the origin of
the program, and a label hides a variable of the same name. -/
def resolve (symbols : Symbols) (origin : Address) : Argument → Except ResolveError Address
  | number n => addressOf n
  | name text =>
    match symbols.label? text with
    | some offset => .ok (origin + offset)
    | none =>
      match symbols.values.find? text with
      | some value => addressOf value.toInt
      | none => .error (.unknown text)

end Argument

end StackRisc.Debugger
