import StackRisc.CommandLine.Number
import StackRisc.CommandLine.Parse
import StackRisc.Tool.Assemble
import StackRisc.Tool.Dump
import StackRisc.Tool.Run

/-!
# StackRisc.Tool.Command

The command line of the tool: its commands, how they are spelled, and how
they are carried out.
-/

namespace StackRisc.Tool

open CommandLine

/-! ## Commands -/

def shells : List String := ["bash", "elvish", "fish", "powershell", "zsh"]

inductive Command where
  | assemble (o : AssembleOptions)
  | run (o : RunOptions)
  | dump (o : DumpOptions)
  | completion (shell : String)
  deriving DecidableEq, Repr

/-! ## Arguments -/

inductive Value where
  | text (s : String)
  | number (n : Nat)
  deriving DecidableEq, Repr, Inhabited

def readAny (text : String) : Except Refusal Value := .ok (.text text)

def readSize (text : String) : Except Refusal Value := (readNumber32 text).map .number

def readCycles (text : String) : Except Refusal Value := (readNumber64 text).map .number

def readShell (text : String) : Except Refusal Value :=
  if shells.contains text then .ok (.text text) else .error .noChoice

def givenText? (g : Given Value) (name : String) : Option String :=
  match g.value? name with
  | some (.text s) => some s
  | _ => none

def givenNumber? (g : Given Value) (name : String) : Option Nat :=
  match g.value? name with
  | some (.number n) => some n
  | _ => none

/-- The size given, or the one that counts without. -/
def givenSize (g : Given Value) (name : String) (absent : Address) : Address :=
  ((givenNumber? g name).map UInt32.ofNat).getD absent

/-! ## The command tree -/

def assembleCommand : CommandTree Value Command :=
  { name := "assemble", about := "Assemble a source file into a program image"
    parameters := [{ name := "source", read := readAny }, { name := "output", read := readAny }]
    settings := [{ name := "symbols", read := readAny }]
    meaning := some fun g => do
      let source ← givenText? g "source"
      let output ← givenText? g "output"
      pure (.assemble { source, output, symbols := givenText? g "symbols" }) }

def runCommand : CommandTree Value Command :=
  { name := "run", about := "Run a program image"
    parameters := [{ name := "binary", read := readAny }]
    settings :=
      [{ name := "frames", read := readAny }, { name := "symbols", read := readAny },
       { name := "ram-size", read := readSize }, { name := "vram-size", read := readSize },
       { name := "data-dir", read := readAny }, { name := "max-cycles", read := readCycles }]
    switches := [{ name := "interactive", letter := some 'i' }]
    meaning := some fun g => do
      let image ← givenText? g "binary"
      let base : RunOptions := { image }
      pure (.run
        { base with
          interactive := g.has "interactive"
          frames := givenText? g "frames"
          symbols := givenText? g "symbols"
          ramSize := givenSize g "ram-size" base.ramSize
          vramSize := givenSize g "vram-size" base.vramSize
          dataDirectory := (givenText? g "data-dir").getD base.dataDirectory
          maxCycles := givenNumber? g "max-cycles" }) }

def dumpCommand : CommandTree Value Command :=
  { name := "dump", about := "Disassemble a program image"
    parameters := [{ name := "input", read := readAny }]
    settings := [{ name := "symbols", read := readAny }]
    meaning := some fun g => do
      let input ← givenText? g "input"
      pure (.dump { input, symbols := givenText? g "symbols" }) }

def completionCommand : CommandTree Value Command :=
  { name := "completion", about := "Generate shell completions"
    parameters := [{ name := "shell", read := readShell }]
    meaning := some fun g => (givenText? g "shell").map .completion }

def commandTree : CommandTree Value Command :=
  { name := "stackrisc", about := "Assembler, emulator and debugger of a stack machine"
    commands := [assembleCommand, runCommand, dumpCommand, completionCommand] }

/-! ## Execution -/

variable {m : Type → Type} [Monad m] [Host m]

/-- Carry out a command.  The words that a shell completes are the names of
the commands, one a line. -/
def Command.execute : Command → Task m Unit
  | assemble o => assembleFile o
  | run o => runImage o
  | dump o => dumpImage o
  | completion _ =>
    (commandTree.commands.flatMap CommandTree.offeredNames).forM fun name =>
      ExceptT.lift (Host.printLine name)

def execute (words : List String) : Task m Unit :=
  match commandTree.parse false words with
  | .ok c => c.execute
  | .error e => throw (.usage e)

end StackRisc.Tool
