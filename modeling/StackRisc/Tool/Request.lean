import StackRisc.Symbols.Json
import StackRisc.Tool.Error
import StackRisc.Tool.Host

/-!
# StackRisc.Tool.Request

Requests to the host that fail with an error of the tool, and how texts and
symbols are read through them.
-/

namespace StackRisc.Tool

variable {m : Type → Type} [Monad m] [Host m]

/-- A computation of the tool. -/
abbrev Task (m : Type → Type) (α : Type) : Type := ExceptT Error m α

def report (e : Event) : Task m Unit := ExceptT.lift (Host.report e)

/-- Make a request, and say what it was for if it is refused. -/
def request {α : Type} (x : m (Except HostError α)) (error : HostError → Error) : Task m α := do
  match ← ExceptT.lift x with
  | .ok a => pure a
  | .error e => throw (error e)

/-- The bytes of a text in UTF-8. -/
def textBytes (text : String) : List Byte := text.toUTF8.data.toList

/-- The text with some bytes in UTF-8. -/
def textOf? (bytes : List Byte) : Except HostError String :=
  match String.fromUTF8? ⟨bytes.toArray⟩ with
  | some text => .ok text
  | none => .error .invalidText

def readBytes (path : String) : Task m (List Byte) := request (Host.read path) (.read path)

def readText (path : String) : Task m String := do
  let bytes ← readBytes path
  match textOf? bytes with
  | .ok text => pure text
  | .error e => throw (.read path e)

/-- Read the symbols in a file. -/
def readSymbols (path : String) : Task m Symbols := do
  let text ← readText path
  match Symbols.ofJson text with
  | .ok s => pure s
  | .error e => throw (.symbols path e)

/-- The symbols of an image.  Unless a file is named for them, they may be
missing. -/
def loadSymbols (image : String) (named : Option String) : Task m Symbols := do
  match named with
  | some path => readSymbols path
  | none =>
    if ← ExceptT.lift (Host.isPresent (Symbols.pathFor image)) then
      readSymbols (Symbols.pathFor image)
    else pure {}

end StackRisc.Tool
