import StackRisc.CommandLine.Tree
import StackRisc.CommandLine.Words
import StackRisc.NameTable
import StackRisc.Text.Blank

/-!
# StackRisc.CommandLine.Completion

Completion of a line that is being typed: the words that can stand where the
cursor is, and the hint shown when there is only one.  Places in a line are
counted in bytes.
-/

namespace StackRisc.CommandLine

open Text

/-! ## Places in a text -/

/-- The characters that lie wholly in the first bytes of a text. -/
def takeBytes : (bytes : Nat) → List Char → List Char
  | _, [] => []
  | n, c :: rest => if c.utf8Size ≤ n then c :: takeBytes (n - c.utf8Size) rest else []

/-- A text without its first bytes, if they end with a character. -/
def dropBytes? : (bytes : Nat) → List Char → Option (List Char)
  | 0, cs => some cs
  | _ + 1, [] => none
  | n + 1, c :: rest =>
    if c.utf8Size ≤ n + 1 then dropBytes? (n + 1 - c.utf8Size) rest else none

/-! ## Candidates -/

/-- The words up to the cursor.  Behind a space or a tab a new word begins,
which is empty so far. -/
def typedWords? (line : List Char) : Option (List String) :=
  match wordsFrom .between line with
  | none => none
  | some words =>
    match line.getLast? with
    | some c => some (if isGap c then words ++ [""] else words)
    | none => some words

def sortNames (names : List String) : List String :=
  (NameTable.ofList (names.map fun n => (n, ()))).names

namespace CommandTree

variable {ν α : Type}

/-- Everything that can follow a command: the commands below it, help about
them, and symbols if its first parameter is an address. -/
def followers (t : CommandTree ν α) (symbols : List String) : List String :=
  let commands := t.commands.flatMap offeredNames
  let help := if t.commands.isEmpty then [] else [helpName]
  let addresses :=
    match t.parameters with
    | p :: _ => if p.name = addressName then symbols else []
    | [] => []
  sortNames (commands ++ help ++ addresses)

/-- Whether a candidate goes on from a word as typed or in upper case. -/
def extendsWord (word candidate : String) : Bool :=
  candidate.startsWith word || candidate.startsWith word.toUpper

/-- The candidates for the last of some words, with the number of bytes of
that word.  The words before it must choose commands by their full names. -/
def suggest (symbols : List String) : (t : CommandTree ν α) → List String → Nat × List String
  | t, [] => (0, t.followers symbols)
  | t, [word] => (word.utf8ByteSize, (t.followers symbols).filter (extendsWord word))
  | t, word :: rest =>
    match t.find? word with
    | some sub => suggest symbols sub rest
    | none => (0, [])

end CommandTree

/-! ## Completion -/

/-- What can be put in a line, and from which byte on. -/
structure Completion where
  start : Nat := 0
  candidates : List String := []
  deriving DecidableEq, Repr, Inhabited

/-- What to know about a line to complete it. -/
structure Completer (ν α : Type) where
  commands : CommandTree ν α
  symbols : List String := []

namespace Completer

variable {ν α : Type}

/-- The candidates for the word at the cursor, with its number of bytes; none
while a quote is open. -/
def suggest? (c : Completer ν α) (line : String) (cursor : Nat) :
    Option (Nat × List String) :=
  (typedWords? (takeBytes cursor line.toList)).map (c.commands.suggest c.symbols)

/-- Complete a line at the cursor. -/
def complete (c : Completer ν α) (line : String) (cursor : Nat) : Completion :=
  match c.suggest? line cursor with
  | some (size, candidates) => ⟨cursor - size, candidates⟩
  | none => {}

/-- What is missing of the only candidate. -/
def hint? (c : Completer ν α) (line : String) (cursor : Nat) : Option String :=
  match c.suggest? line cursor with
  | some (size, [candidate]) => (dropBytes? size candidate.toList).map String.ofList
  | _ => none

end Completer

end StackRisc.CommandLine
