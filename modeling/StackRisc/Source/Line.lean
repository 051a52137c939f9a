import StackRisc.Text.Blank

/-!
# StackRisc.Source.Line

The lines of a source text, cleaned: without comment, without blanks around,
with ASCII letters in upper case.  Cleaning moves no byte of what is left,
so a place in a cleaned line is a place in the source.
-/

namespace StackRisc

/-- A stretch of the source, in bytes. -/
structure Span where
  start : Nat
  length : Nat
  deriving DecidableEq, Repr, Inhabited

/-- A cleaned line that is not empty. -/
structure SourceLine where
  /-- Number of the line, from 1. -/
  number : Nat
  /-- Byte offset of the cleaned line in the source. -/
  offset : Nat
  text : List Char
  deriving DecidableEq, Repr, Inhabited

namespace SourceLine

open Text

/-- The stretch of the whole cleaned line. -/
def span (l : SourceLine) : Span := ⟨l.offset, utf8Size l.text⟩

/-- The code of a raw line: what stands before the first semicolon. -/
def code (raw : List Char) : List Char := before ';' raw

/-- Clean a raw line that starts at a byte offset; nothing may be left. -/
def clean? (number offset : Nat) (raw : List Char) : Option SourceLine :=
  let code := code raw
  let text := trim code
  if text = [] then none
  else some ⟨number, offset + utf8Size (code.takeWhile isBlank), upper text⟩

/-- Clean raw lines, the first of which has a number and a byte offset. -/
def cleanAll : (number offset : Nat) → List (List Char) → List SourceLine
  | _, _, [] => []
  | number, offset, raw :: rest =>
    (clean? number offset raw).toList
      ++ cleanAll (number + 1) (offset + utf8Size raw + 1) rest

/-- The cleaned lines of a source text. -/
def ofSource (source : String) : List SourceLine :=
  cleanAll 1 0 (pieces '\n' source.toList)

end SourceLine

end StackRisc
