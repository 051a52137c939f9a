import StackRisc.Source.Statement
import StackRisc.Text.Numeral
import StackRisc.Word

/-!
# StackRisc.Assembly.Error

Why a source text was refused.  Every cause carries the stretches of the
source that it is about; the texts shown for them are here.
-/

namespace StackRisc

/-- What is wrong with the form of a line. -/
inductive Malformation where
  | unreadable
  | badValue (text : String)
  | badOperand (text : String)
  | arity (mnemonic : String) (expected : List Nat) (got : Nat)
  deriving DecidableEq, Repr, Inhabited

def Malformation.message : Malformation → String
  | unreadable => "could not parse line"
  | badValue text => "invalid value " ++ text
  | badOperand text => "invalid operand " ++ text
  | arity mnemonic expected got =>
    mnemonic ++ " takes " ++ " or ".intercalate (expected.map toString) ++ " operand(s), got "
      ++ toString got

/-- The range that a number had to lie in. -/
inductive Range where
  /-- The words that are not negative. -/
  | word
  /-- The offsets of a program. -/
  | program
  deriving DecidableEq, Repr, Inhabited

/-- One more than the largest offset of a program. -/
def offsetLimit : Nat := 4096

def Range.expected : Range → String
  | word => "a value between 0 and " ++ toString Word.largest
  | program => "an offset below " ++ toString offsetLimit

/-- Why a source text was refused. -/
inductive AssemblyError where
  | malformed (line : Nat) (cause : Malformation) (span : Span)
  /-- A label is defined while another one waits for its instruction. -/
  | openLabel (name pending : String) (span pendingSpan : Span)
  | duplicateLabel (name : String) (span first : Span)
  | danglingLabel (name : String) (span : Span)
  | outOfRange (value : Int) (range : Range) (span : Span)
  | unknownMnemonic (mnemonic : String) (span : Span)
  | unresolved (name : String) (span : Span)
  | circular (name : String) (span : Span)
  | tooLarge (size : Nat)
  deriving DecidableEq, Repr, Inhabited

namespace AssemblyError

def message : AssemblyError → String
  | malformed line cause _ => "syntax error on line " ++ toString line ++ ": " ++ cause.message
  | openLabel name pending _ _ =>
    "label " ++ name ++ " defined while label " ++ pending
      ++ " is still waiting for an instruction"
  | duplicateLabel name _ _ => "duplicate label " ++ name
  | danglingLabel name _ => "label " ++ name ++ " is not followed by any instruction"
  | outOfRange value _ _ => "integer " ++ toString value ++ " outside of the expected range"
  | unknownMnemonic mnemonic _ => "unrecognized instruction " ++ mnemonic
  | unresolved name _ => "reference not found: " ++ name
  | circular name _ => "variable " ++ name ++ " is defined in terms of itself"
  | tooLarge size =>
    "program is too large: " ++ toString size ++ " bytes, at most " ++ toString offsetLimit
      ++ " fit"

/-- The code of an error, for lookup in documentation. -/
def code : AssemblyError → String
  | malformed .. => "vrisc::syntax"
  | openLabel .. => "vrisc::duplicate_open_label"
  | duplicateLabel .. => "vrisc::duplicate_label"
  | danglingLabel .. => "vrisc::dangling_label"
  | outOfRange .. => "vrisc::integer_out_of_range"
  | unknownMnemonic .. => "vrisc::unrecognized_instruction"
  | unresolved .. => "vrisc::unresolved_reference"
  | circular .. => "vrisc::circular_variable"
  | tooLarge _ => "vrisc::program_too_large"

/-- The stretches of the source that an error is about, each with its text. -/
def labels : AssemblyError → List (Span × String)
  | malformed _ _ span => [(span, "here")]
  | openLabel _ _ span pendingSpan =>
    [(span, "this label"), (pendingSpan, "is not attached to anything")]
  | duplicateLabel _ span first => [(span, "redefined here"), (first, "first defined here")]
  | danglingLabel _ span => [(span, "dangling label")]
  | outOfRange _ range span => [(span, "expected " ++ range.expected)]
  | unknownMnemonic _ span => [(span, "unknown mnemonic")]
  | unresolved _ span => [(span, "no label or variable with this name")]
  | circular _ span => [(span, "used here")]
  | tooLarge _ => []

end AssemblyError

end StackRisc
