import StackRisc.Text.Cursor
import StackRisc.Text.Letter
import StackRisc.Source.Line

/-!
# StackRisc.Source.Statement

What a cleaned line says.  A line is a label alone, `NAME = VALUE`, or an
instruction with an optional label in front; the first reading that covers
the whole line counts.  Words are separated by gaps (spaces and tabs), and a
word keeps the number of bytes before it, for the reports.
-/

namespace StackRisc

open Text

/-- A word of a line, with the number of bytes before it. -/
structure Lexeme where
  start : Nat
  text : String
  deriving DecidableEq, Repr, Inhabited

/-- The stretch of a word of a line in the source. -/
def SourceLine.spanOf (l : SourceLine) (word : Lexeme) : Span :=
  ⟨l.offset + word.start, word.text.utf8ByteSize⟩

/-- What a line says. -/
inductive Statement where
  /-- `NAME:` alone, a label for the next instruction. -/
  | label (name : Lexeme)
  /-- `NAME = VALUE` -/
  | definition (name value : Lexeme)
  /-- `[NAME:] MNEMONIC ARGUMENTS` -/
  | instruction (label : Option Lexeme) (mnemonic : Lexeme) (arguments : List Lexeme)
  deriving DecidableEq, Repr, Inhabited

/-! ## Reading words -/

namespace Text.Cursor

/-- Skip spaces and tabs. -/
def skipGaps (c : Cursor) : Cursor := c.skip isGap

/-- Read the longest word made of a class of characters; it must not be empty. -/
def word? (p : Char → Bool) (c : Cursor) : Option (Lexeme × Cursor) :=
  match c.rest.takeWhile p with
  | [] => none
  | word => some (⟨c.offset, String.ofList word⟩, c.skip p)

/-- Read a name. -/
def name? (c : Cursor) : Option (Lexeme × Cursor) := c.word? isNameChar

/-- Read a word that ends at a gap. -/
def token? (c : Cursor) : Option (Lexeme × Cursor) := c.word? fun ch => !isGap ch

/-- Whether only gaps are left. -/
def isDone (c : Cursor) : Bool := c.rest.all isGap

end Text.Cursor

/-- The words between the gaps of a text.  The word being read is given by
its start and its characters so far, last one first. -/
def tokensFrom (offset start : Nat) (run : List Char) : List Char → List Lexeme
  | [] => flush []
  | c :: rest =>
    let next := offset + c.utf8Size
    if isGap c then flush (tokensFrom next next [] rest)
    else tokensFrom next start (c :: run) rest
where
  /-- Put the word being read, if there is one, in front of others. -/
  flush (others : List Lexeme) : List Lexeme :=
    if run.isEmpty then others else ⟨start, String.ofList run.reverse⟩ :: others

/-- The words at a cursor. -/
def Text.Cursor.tokens (c : Cursor) : List Lexeme := tokensFrom c.offset c.offset [] c.rest

/-! ## Reading lines -/

namespace Statement

/-- Read `NAME` and a colon, with gaps between. -/
def labelDefinition? (c : Cursor) : Option (Lexeme × Cursor) := do
  let (name, c) ← c.name?
  let c ← c.skipGaps.char? ':'
  pure (name, c)

/-- Read a label that stands alone. -/
def labelLine? (c : Cursor) : Option Statement := do
  let (name, c) ← labelDefinition? c
  if c.isDone then some (.label name) else none

/-- Read the definition of a variable. -/
def variableLine? (c : Cursor) : Option Statement := do
  let (name, c) ← c.name?
  let c ← c.skipGaps.char? '='
  let (value, c) ← c.skipGaps.token?
  if c.isDone then some (.definition name value) else none

/-- Read an optional label in front of an instruction. -/
def inlineLabel (c : Cursor) : Option Lexeme × Cursor :=
  match labelDefinition? c with
  | some (name, c) => (some name, c.skipGaps)
  | none => (none, c)

/-- Read an instruction.  Its mnemonic ends at a gap or at the end. -/
def instructionLine? (c : Cursor) : Option Statement := do
  let start := inlineLabel c
  let (mnemonic, c) ← start.2.name?
  match c.rest with
  | [] => some (.instruction start.1 mnemonic [])
  | x :: _ => if isGap x then some (.instruction start.1 mnemonic c.tokens) else none

/-- Read a cleaned line. -/
def read? (line : List Char) : Option Statement :=
  let c := Cursor.ofText line
  labelLine? c <|> variableLine? c <|> instructionLine? c

end Statement

end StackRisc
