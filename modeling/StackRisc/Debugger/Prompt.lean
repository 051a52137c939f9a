import StackRisc.CommandLine.Words
import StackRisc.Text.Backspace

/-!
# StackRisc.Debugger.Prompt

Lines as they come from the input.  A backspace takes back what was typed
before it, and while a quote is open, the next line belongs to the same
command.
-/

namespace StackRisc.Debugger

/-- What has been typed. -/
inductive Typed where
  | complete (line : String)
  /-- A quote is open. -/
  | unfinished (text : String)
  deriving DecidableEq, Repr, Inhabited

/-- Whether a line ends with a carriage return. -/
def endsWithReturn (line : String) : Bool := line.toList.getLast? == some '\r'

/-- A line without the carriage return at its end. -/
def dropReturn (line : String) : String :=
  if endsWithReturn line then String.ofList line.toList.dropLast else line

/-- Add a line to what has been typed before it.  A backspace may also take
back the end of a line before. -/
def addLine (held line : String) : Typed :=
  let text := Text.withoutBackspaces (held ++ dropReturn line)
  if (CommandLine.words? text).isSome then .complete text
  else .unfinished (text ++ (if endsWithReturn line then "\r\n" else "\n"))

end StackRisc.Debugger
