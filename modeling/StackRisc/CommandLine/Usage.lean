import StackRisc.CommandLine.Style
import StackRisc.CommandLine.Tree
import StackRisc.Text.Visible

/-!
# StackRisc.CommandLine.Usage

Why a command line stands for nothing: it asks for help, or something in it
cannot be taken.
-/

namespace StackRisc.CommandLine

/-- Why a command line stands for nothing. -/
inductive UsageError where
  /-- Help was asked for, about this. -/
  | help (about : String)
  /-- A command is needed and there is none. -/
  | nothingGiven (about : String)
  | unknownCommand (word : String)
  | unexpectedArgument (word : String)
  | missingArgument
  /-- A value was refused. -/
  | invalidValue (value place : String) (refusal : Refusal)
  /-- A setting has no value. -/
  | missingValue (place : String)
  /-- An option was given twice. -/
  | repeated (place : String)
  /-- A switch was given a value. -/
  | unexpectedValue (value place : String)
  deriving DecidableEq, Repr, Inhabited

def quote (text : String) : String := "'" ++ text ++ "'"

namespace UsageError

/-- What is wrong, in the styles of a terminal: words of the command line are
set off from the text around them, but for the reason of a refused value. -/
def reason : UsageError → String
  | help about => about
  | nothingGiven about => about
  | unknownCommand word => "unrecognized subcommand " ++ quote (styleRefused word)
  | unexpectedArgument word => "unexpected argument " ++ quote (styleRefused word) ++ " found"
  | missingArgument => "the following required arguments were not provided:"
  | invalidValue value place (.because reason) =>
    "invalid value " ++ quote (styleRefused value) ++ " for " ++ quote (styleName place) ++ ": "
      ++ reason
  | invalidValue value place .noChoice =>
    "invalid value " ++ quote (styleRefused value) ++ " for " ++ quote (styleName place)
  | missingValue place =>
    "a value is required for " ++ quote (styleRefused place) ++ " but none was supplied"
  | repeated place =>
    "the argument " ++ quote (styleRefused place) ++ " cannot be used multiple times"
  | unexpectedValue value place =>
    "unexpected value " ++ quote (styleRefused value) ++ " for " ++ quote (styleName place)
      ++ " found; no more were expected"

/-- Where a report points to. -/
def advice : String := "\n\nFor more information, try " ++ quote (styleName "--help") ++ "."

def report (e : UsageError) : String :=
  match e with
  | help about | nothingGiven about => about
  | e => "error: " ++ e.reason ++ advice

/-- What is visible of the report of a usage error. -/
def message (e : UsageError) : String := Text.visible e.report

end UsageError

end StackRisc.CommandLine
