import StackRisc.CommandLine.Usage

/-!
# StackRisc.CommandLine.Parse

From words to what they stand for.  Words are taken from left to right.  A
value is checked only when the next argument begins or the line ends, so an
argument that is not known is refused before a bad value in front of it.
Behind `--` every word is a value.
-/

namespace StackRisc.CommandLine

variable {ν α : Type}

/-! ## The shape of a word -/

/-- What the hyphens at the front of a word say. -/
inductive Shape where
  /-- `--`, which ends the options. -/
  | terminator
  /-- `--name` or `--name=value` -/
  | long (name : String) (value : Option String)
  /-- `-abc` -/
  | short (letters : List Char)
  | plain
  deriving DecidableEq, Repr

/-- Split what follows `--` at the first equals sign. -/
def longShape (body : List Char) : Shape :=
  let name := String.ofList (body.takeWhile (· ≠ '='))
  match body.dropWhile (· ≠ '=') with
  | _ :: value => .long name (some (String.ofList value))
  | [] => .long name none

/-- The shape of a word; a lone hyphen is plain. -/
def shapeOf (word : String) : Shape :=
  match word.toList with
  | ['-', '-'] => .terminator
  | '-' :: '-' :: body => longShape body
  | '-' :: c :: rest => .short (c :: rest)
  | _ => .plain

/-! ## Collecting arguments -/

/-- An argument that has begun and is not checked yet. -/
inductive Pending (ν : Type) where
  | parameter (p : Parameter ν) (text : String)
  /-- A setting, with its value once it is there. -/
  | setting (s : Setting ν) (text : Option String)

/-- What has been taken of the words of a command. -/
structure Progress (ν : Type) where
  given : Given ν := {}
  pending : Option (Pending ν) := none
  /-- Number of the parameters that have begun. -/
  position : Nat := 0

/-- Read a value, or say where it was refused. -/
def readValue (read : String → Except Refusal ν) (place text : String) :
    Except UsageError ν :=
  (read text).mapError (.invalidValue text place)

namespace Given

def addParameter (g : Given ν) (p : Parameter ν) (text : String) :
    Except UsageError (Given ν) := do
  let v ← readValue p.read p.text text
  pure { g with values := g.values ++ [(p.name, v)] }

/-- Add a setting, which must have a value and be new. -/
def addSetting (g : Given ν) (s : Setting ν) (text : Option String) :
    Except UsageError (Given ν) :=
  match text with
  | none => .error (.missingValue s.text)
  | some text =>
    if (g.value? s.name).isSome then .error (.repeated s.text)
    else do
      let v ← readValue s.read s.text text
      pure { g with values := g.values ++ [(s.name, v)] }

/-- Add a switch, which must be new. -/
def addSwitch (g : Given ν) (s : Switch) : Except UsageError (Given ν) :=
  if g.has s.name then .error (.repeated s.text)
  else .ok { g with switches := g.switches ++ [s.name] }

end Given

namespace Progress

/-- The arguments given, the one that has begun included. -/
def settle (p : Progress ν) : Except UsageError (Given ν) :=
  match p.pending with
  | none => .ok p.given
  | some (.parameter parameter text) => p.given.addParameter parameter text
  | some (.setting s text) => p.given.addSetting s text

/-- The setting that waits for its value. -/
def waiting? (p : Progress ν) : Option (Setting ν) :=
  match p.pending with
  | some (.setting s none) => some s
  | _ => none

/-- Check what has begun, and then go on with other arguments. -/
def continueWith (p : Progress ν) (f : Given ν → Except UsageError (Given ν)) :
    Except UsageError (Progress ν) := do
  let given ← p.settle
  let given ← f given
  pure { p with given, pending := none }

/-- Check what has begun, and then begin another argument. -/
def begin (p : Progress ν) (next : Pending ν) : Except UsageError (Progress ν) := do
  let given ← p.settle
  pure { p with given, pending := some next }

/-- Check what has begun, and then give help. -/
def giveHelp {β : Type} (p : Progress ν) (about : String) : Except UsageError β := do
  let _ ← p.settle
  .error (.help about)

end Progress

/-! ## One word -/

namespace CommandTree

/-- Take `--name` or `--name=value`. -/
def takeLong (t : CommandTree ν α) (p : Progress ν) (name : String) (value : Option String) :
    Except UsageError (Progress ν) :=
  match t.settings.find? (·.name == name), t.switches.find? (·.name == name), value with
  | some s, _, some value => p.continueWith (·.addSetting s (some value))
  | some s, _, none => p.begin (.setting s none)
  | none, some s, some value => .error (.unexpectedValue value s.text)
  | none, some s, none => p.continueWith (·.addSwitch s)
  | none, none, value =>
    if name = helpName then
      match value with
      | some value => .error (.unexpectedValue value ("--" ++ helpName))
      | none => p.giveHelp t.about
    else .error (.unexpectedArgument ("--" ++ name))

/-- Take the letters behind a hyphen. -/
def takeShort (t : CommandTree ν α) : (p : Progress ν) → List Char →
    Except UsageError (Progress ν)
  | p, [] => .ok p
  | p, c :: rest =>
    match t.switches.find? (·.letter == some c) with
    | some s => do
      let p ← p.continueWith (·.addSwitch s)
      t.takeShort p rest
    | none =>
      if c = 'h' then p.giveHelp t.about
      else .error (.unexpectedArgument (String.ofList ['-', c]))

def lookup? (t : CommandTree ν α) (abbreviate : Bool) (word : String) : Option (Choice ν α) :=
  if abbreviate then t.abbreviated? word else t.choose? word

/-- The refusal of a word that no parameter takes. -/
def refuse (t : CommandTree ν α) (abbreviate trailing : Bool) (word : String) : UsageError :=
  if t.commands.isEmpty || (trailing && (t.lookup? abbreviate word).isSome) then
    .unexpectedArgument word
  else .unknownCommand word

/-- Take a word as the value of the next parameter. -/
def takeValue (t : CommandTree ν α) (abbreviate trailing : Bool) (p : Progress ν)
    (word : String) : Except UsageError (Progress ν) :=
  match t.parameters[p.position]? with
  | some parameter => do
    let p ← p.begin (.parameter parameter word)
    pure { p with position := p.position + 1 }
  | none => .error (t.refuse abbreviate trailing word)

def takeWord (t : CommandTree ν α) (abbreviate : Bool) (p : Progress ν) (word : String) :
    Except UsageError (Progress ν) :=
  match shapeOf word with
  | .terminator => .ok p
  | .long name value => t.takeLong p name value
  | .short letters => t.takeShort p letters
  | .plain =>
    match p.waiting? with
    | some s => .ok { p with pending := some (.setting s (some word)) }
    | none => t.takeValue abbreviate false p word

/-! ## All words -/

/-- The help that `help` and the words behind it ask for. -/
def explain (t : CommandTree ν α) : List String → UsageError
  | [] => .help t.about
  | word :: rest =>
    match t.choose? word with
    | some (.command sub) => sub.explain rest
    | some .help =>
      match rest with
      | [] => .help helpAbout
      | word :: _ => .unknownCommand word
    | none => .unknownCommand word

/-- What a command stands for when its words are all taken. -/
def finish (t : CommandTree ν α) (p : Progress ν) : Except UsageError α := do
  let given ← p.settle
  match t.meaning with
  | none => .error (.nothingGiven t.about)
  | some meaning =>
    match meaning given with
    | some a => pure a
    | none => .error .missingArgument

/-- Take words behind `--`. -/
def parseTrailing (abbreviate : Bool) (t : CommandTree ν α) : (p : Progress ν) → List String →
    Except UsageError α
  | p, [] => t.finish p
  | p, word :: rest => do
    let p ← t.takeValue abbreviate true p word
    parseTrailing abbreviate t p rest

/-- Take the words of a command.  Unless a setting waits for its value, a
word may choose a command below. -/
def parseFrom (abbreviate : Bool) : (t : CommandTree ν α) → (p : Progress ν) → List String →
    Except UsageError α
  | t, p, [] => t.finish p
  | t, p, word :: rest =>
    let choice := if p.waiting?.isSome then none else t.lookup? abbreviate word
    match choice with
    | some .help => .error (t.explain rest)
    | some (.command sub) => parseFrom abbreviate sub {} rest
    | none =>
      if shapeOf word = .terminator then parseTrailing abbreviate t p rest
      else do
        let p ← t.takeWord abbreviate p word
        parseFrom abbreviate t p rest

/-- What some words stand for.  Names may be abbreviated if asked for. -/
def parse (t : CommandTree ν α) (abbreviate : Bool) (words : List String) :
    Except UsageError α :=
  parseFrom abbreviate t {} words

end CommandTree

end StackRisc.CommandLine
