/-!
# StackRisc.CommandLine.Tree

Commands as they can be typed: a tree of names, each with the arguments that
may follow it and with what it stands for.  Values are read into a type `ν`,
and a whole command line stands for an `α`.
-/

namespace StackRisc.CommandLine

inductive Refusal where
  | because (reason : String)
  /-- It is none of the values to choose from. -/
  | noChoice
  deriving DecidableEq, Repr, Inhabited

/-- An argument that is known by its position. -/
structure Parameter (ν : Type) where
  name : String
  required : Bool := true
  read : String → Except Refusal ν

/-- The name of the parameters whose values are addresses. -/
def addressName : String := "address"

/-- An option that takes a value. -/
structure Setting (ν : Type) where
  name : String
  read : String → Except Refusal ν

/-- An option that takes no value. -/
structure Switch where
  name : String
  letter : Option Char := none
  deriving DecidableEq, Repr, Inhabited

/-- How a parameter is written: in angle brackets if it is required. -/
def Parameter.text {ν : Type} (p : Parameter ν) : String :=
  if p.required then "<" ++ p.name.toUpper ++ ">" else "[" ++ p.name.toUpper ++ "]"

def Setting.text {ν : Type} (s : Setting ν) : String :=
  "--" ++ s.name ++ " <" ++ (s.name.map fun c => if c = '-' then '_' else c).toUpper ++ ">"

def Switch.text (s : Switch) : String := "--" ++ s.name

structure Given (ν : Type) where
  values : List (String × ν) := []
  switches : List String := []

namespace Given

variable {ν : Type}

def value? (g : Given ν) (name : String) : Option ν :=
  (g.values.find? (·.1 == name)).map Prod.snd

def has (g : Given ν) (name : String) : Bool := g.switches.contains name

end Given

/-- A command, with the commands below it. -/
structure CommandTree (ν α : Type) where
  name : String
  /-- What the command does, in a line. -/
  about : String := ""
  /-- Further names. -/
  aliases : List String := []
  /-- Further names that are not offered. -/
  hiddenAliases : List String := []
  parameters : List (Parameter ν) := []
  settings : List (Setting ν) := []
  switches : List Switch := []
  commands : List (CommandTree ν α) := []
  /-- What the command stands for when none below it is given; a command
  without it needs one below it.  A required argument may be missing. -/
  meaning : Option (Given ν → Option α) := none

namespace CommandTree

variable {ν α : Type}

instance : Inhabited (CommandTree ν α) := ⟨{ name := "" }⟩

def names (t : CommandTree ν α) : List String := t.name :: t.aliases ++ t.hiddenAliases

def offeredNames (t : CommandTree ν α) : List String := t.name :: t.aliases

/-- The command below with exactly this name. -/
def find? (t : CommandTree ν α) (word : String) : Option (CommandTree ν α) :=
  t.commands.find? fun c => c.names.contains word

/-- The name under which every command with commands below it explains them. -/
def helpName : String := "help"

def helpAbout : String := "Print this message or the help of the given subcommand(s)"

/-- What a word can choose below a command. -/
inductive Choice (ν α : Type) where
  | help
  | command (t : CommandTree ν α)

/-- Everything that can be chosen below a command, with its names. -/
def choices (t : CommandTree ν α) : List (List String × Choice ν α) :=
  if t.commands.isEmpty then []
  else t.commands.map (fun c => (c.names, .command c)) ++ [([helpName], .help)]

/-- The choice with exactly this name. -/
def choose? (t : CommandTree ν α) (word : String) : Option (Choice ν α) :=
  (t.choices.find? fun c => c.1.contains word).map Prod.snd

/-- The choice that a word is short for: the only one with a name that the
word begins, or else the one with exactly this name. -/
def abbreviated? (t : CommandTree ν α) (word : String) : Option (Choice ν α) :=
  match t.choices.filter fun c => c.1.any (·.startsWith word) with
  | [c] => some c.2
  | _ => t.choose? word

end CommandTree

end StackRisc.CommandLine
