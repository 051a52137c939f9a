import StackRisc.Assembly.Error
import StackRisc.CommandLine.Usage
import StackRisc.Computer.State
import StackRisc.Json.Error

/-!
# StackRisc.Tool.Error

Why a command of the tool failed.
-/

namespace StackRisc.Tool

/-- Why a command of the tool failed. -/
inductive Error where
  | usage (cause : CommandLine.UsageError)
  | assembly (cause : AssemblyError)
  | read (path : String) (cause : HostError)
  | write (path : String) (cause : HostError)
  | create (path : String) (cause : HostError)
  | symbols (path : String) (cause : Json.Error)
  | load (cause : LoadError)
  | fault (cause : Fault)
  /-- The program did not end within the range of the cycle counter. -/
  | unfinished
  deriving DecidableEq, Repr

def Error.message : Error → String
  | usage cause => cause.message
  | assembly cause => cause.message
  | read path cause => "could not read " ++ path ++ ": " ++ cause.message
  | write path cause => "could not write " ++ path ++ ": " ++ cause.message
  | create path cause => "could not create " ++ path ++ ": " ++ cause.message
  | symbols path cause => "invalid symbol file " ++ path ++ ": " ++ cause.message
  | load cause => cause.message
  | fault cause => cause.fullMessage
  | unfinished => "the program does not end"

end StackRisc.Tool
