import StackRisc.Text.Quoted

/-!
# StackRisc.Json.Error

Why a JSON text was refused.  A refusal names its cause and the place where
it was noticed, as a byte offset while reading and as a line and a column in
the report.
-/

namespace StackRisc.Json

/-- A value that is not of the kind asked for. -/
inductive Found where
  | null
  | boolean (value : Bool)
  | integer (value : Int)
  /-- A number with a fraction or an exponent, or negative zero, by its text. -/
  | float (text : String)
  | string (text : String)
  | array
  | object
  deriving DecidableEq, Repr, Inhabited

def Found.name : Found → String
  | null => "null"
  | boolean value => "boolean `" ++ toString value ++ "`"
  | integer value => "integer `" ++ toString value ++ "`"
  | float text => "floating point `" ++ text ++ "`"
  | string text => "string " ++ Text.quoted text
  | array => "sequence"
  | object => "map"

/-- Why a text was refused. -/
inductive Cause where
  | endInList | endInObject | endInString | endInValue
  | expectedColon | expectedListEnd | expectedObjectEnd | expectedKeyword | expectedValue
  | invalidEscape | invalidNumber | numberOutOfRange | controlCharacter | keyNotString
  | loneSurrogate | endInEscape | trailingComma | trailingCharacters
  | wrongKind (found : Found) (expected : String)
  | wrongValue (found : Found) (expected : String)
  | wrongLength (length : Nat) (expected : String)
  | missingField (name : String)
  | duplicateField (name : String)
  deriving DecidableEq, Repr, Inhabited

/-- The three classes of causes. -/
inductive Category where
  /-- The text ends too early. -/
  | ended
  /-- The text is not JSON. -/
  | malformed
  /-- The text is JSON of the wrong shape. -/
  | mismatch
  deriving DecidableEq, Repr, Inhabited

namespace Cause

def category : Cause → Category
  | endInList | endInObject | endInString | endInValue => .ended
  | wrongKind .. | wrongValue .. | wrongLength .. | missingField _ | duplicateField _ => .mismatch
  | _ => .malformed

def message : Cause → String
  | endInList => "EOF while parsing a list"
  | endInObject => "EOF while parsing an object"
  | endInString => "EOF while parsing a string"
  | endInValue => "EOF while parsing a value"
  | expectedColon => "expected `:`"
  | expectedListEnd => "expected `,` or `]`"
  | expectedObjectEnd => "expected `,` or `\x7d`"
  | expectedKeyword => "expected ident"
  | expectedValue => "expected value"
  | invalidEscape => "invalid escape"
  | invalidNumber => "invalid number"
  | numberOutOfRange => "number out of range"
  | controlCharacter => "control character (\\u0000-\\u001F) found while parsing a string"
  | keyNotString => "key must be a string"
  | loneSurrogate => "lone leading surrogate in hex escape"
  | endInEscape => "unexpected end of hex escape"
  | trailingComma => "trailing comma"
  | trailingCharacters => "trailing characters"
  | wrongKind found expected => "invalid type: " ++ found.name ++ ", expected " ++ expected
  | wrongValue found expected => "invalid value: " ++ found.name ++ ", expected " ++ expected
  | wrongLength length expected =>
    "invalid length " ++ toString length ++ ", expected " ++ expected
  | missingField name => "missing field `" ++ name ++ "`"
  | duplicateField name => "duplicate field `" ++ name ++ "`"

end Cause

/-- A cause and the byte offset where it was noticed. -/
structure Failure where
  cause : Cause
  offset : Nat
  deriving DecidableEq, Repr, Inhabited

/-- A cause and the line and column where it was noticed; columns count the
bytes of the line before the place. -/
structure Error where
  cause : Cause
  line : Nat
  column : Nat
  deriving DecidableEq, Repr, Inhabited

def Error.message (e : Error) : String :=
  e.cause.message ++ " at line " ++ toString e.line ++ " column " ++ toString e.column

/-- Line and column of a byte offset, counted from a line and a column. -/
def place : (line column : Nat) → (offset : Nat) → List Char → Nat × Nat
  | line, column, offset, [] => (line, column + offset)
  | line, column, offset, c :: rest =>
    if offset < c.utf8Size then (line, column + offset)
    else if c = '\n' then place (line + 1) 0 (offset - 1) rest
    else place line (column + c.utf8Size) (offset - c.utf8Size) rest

/-- The report of a failure in a text. -/
def Failure.report (f : Failure) (text : List Char) : Error :=
  let (line, column) := place 1 0 f.offset text
  ⟨f.cause, line, column⟩

end StackRisc.Json
