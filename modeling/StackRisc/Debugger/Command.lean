import StackRisc.CommandLine.Number
import StackRisc.CommandLine.Parse
import StackRisc.CommandLine.Words
import StackRisc.Debugger.Argument
import StackRisc.Event

/-!
# StackRisc.Debugger.Command

The commands of the debugger and how they are typed.  A name can be
abbreviated as long as it stays clear which one is meant.
-/

namespace StackRisc.Debugger

open CommandLine

/-! ## Commands -/

/-- What the debugger can tell about its session. -/
inductive Topic where
  | breakpoints | labels | cycles
  deriving DecidableEq, Repr, Inhabited

inductive Command where
  /-- Execute some instructions. -/
  | step (count : Nat)
  /-- Execute up to the next breakpoint. -/
  | resume
  /-- Leave. -/
  | exit
  | registers
  | stack
  /-- Show some bytes from an address on. -/
  | memory (start : Argument) (count : Nat)
  /-- Show the next instructions. -/
  | list (count : Nat)
  | setBreak (address : Argument)
  | clearBreak (address : Argument)
  /-- Tell about one topic, or about all. -/
  | info (topic : Option Topic)
  deriving DecidableEq, Repr, Inhabited

/-- Whether a command makes sense only while the machine can run. -/
def Command.needsMachine : Command → Bool
  | step _ | resume | setBreak _ | clearBreak _ => true
  | exit | registers | stack | memory .. | list _ | info _ => false

/-! ## Arguments -/

inductive Value where
  | address (a : Argument)
  | count (n : Nat)
  deriving DecidableEq, Repr, Inhabited

def readAddress (text : String) : Except Refusal Value :=
  match Argument.ofText text with
  | .ok a => .ok (.address a)
  | .error e => .error (.because e.message)

def readSteps (text : String) : Except Refusal Value := (readNumber64 text).map .count

def readCount (text : String) : Except Refusal Value := (readNumber32 text).map .count

def addressParameter : Parameter Value := { name := addressName, read := readAddress }

/-- The name of the parameters that are numbers. -/
def numberName : String := "number"

def numberParameter (read : String → Except Refusal Value) : Parameter Value :=
  { name := numberName, required := false, read }

def givenAddress? (g : Given Value) : Option Argument :=
  match g.value? addressName with
  | some (.address a) => some a
  | _ => none

/-- The number given, or the one that counts without. -/
def givenNumber (g : Given Value) (absent : Nat) : Nat :=
  match g.value? numberName with
  | some (.count n) => n
  | _ => absent

/-! ## The command tree -/

def plainCommand (name about : String) (hidden : List String) (c : Command) :
    CommandTree Value Command :=
  { name, about, hiddenAliases := hidden, meaning := some fun _ => some c }

def addressCommand (name about : String) (c : Argument → Command) :
    CommandTree Value Command :=
  { name, about, parameters := [addressParameter]
    meaning := some fun g => (givenAddress? g).map c }

def commands : List (CommandTree Value Command) :=
  [{ name := "step", about := "Execute the next instructions", hiddenAliases := ["s"]
     parameters := [numberParameter readSteps]
     meaning := some fun g => some (.step (givenNumber g 1)) },
   plainCommand "exit" "Exit the emulator" [] .exit,
   plainCommand "registers" "Show the state of registers" [] .registers,
   plainCommand "stack" "Show the operand stack and the call stack" [] .stack,
   { name := "memory", about := "Show the content of a block in memory"
     parameters := [addressParameter, numberParameter readCount]
     meaning := some fun g => (givenAddress? g).map fun a => .memory a (givenNumber g 16) },
   { name := "list", about := "Show the next few instructions"
     parameters := [numberParameter readCount]
     meaning := some fun g => some (.list (givenNumber g 10)) },
   addressCommand "break" "Set a breakpoint" .setBreak,
   addressCommand "unbreak" "Remove a breakpoint" .clearBreak,
   plainCommand "continue" "Continue the program until the next breakpoint or halt" ["c"] .resume,
   { name := "info", about := "Show informations about the current debugging session"
     commands :=
       [plainCommand "breakpoints" "List active breakpoints" [] (.info (some .breakpoints)),
        plainCommand "labels" "List program labels" [] (.info (some .labels)),
        plainCommand "cycles"
          "Show the number of CPU cycles used since the beginning of the program" []
          (.info (some .cycles))]
     meaning := some fun _ => some (.info none) }]

def commandTree : CommandTree Value Command :=
  { name := "debugger", about := "Interactive mode commands", commands }

namespace Command

/-- The command that some words stand for. -/
def ofWords (words : List String) : Except UsageError Command := commandTree.parse true words

/-- The command that a line stands for, or what is reported instead. -/
def ofLine (line : String) : Except Event Command :=
  match words? line with
  | none => .error (.warn "Invalid input")
  | some words =>
    match ofWords words with
    | .ok c => .ok c
    | .error e => .error (.warn "" [("error", e.message)])

end Command

end StackRisc.Debugger
