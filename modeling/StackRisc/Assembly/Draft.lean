import StackRisc.Assembly.Scope
import StackRisc.Event
import StackRisc.Symbols

/-!
# StackRisc.Assembly.Draft

Two-pass assembly.  The first pass goes over the lines, lays out the
instructions, collects labels and variables and resolves the operands it
already can; a reference to a name that is no variable yet is left pending.
The second pass resolves what is pending once every name is known, and
emits the image.
-/

namespace StackRisc

/-- An operand after the first pass. -/
inductive Slot where
  | resolved (value : Word)
  | pending (operand : Operand)
  deriving DecidableEq, Repr, Inhabited

/-- An instruction after the first pass. -/
structure Placed where
  opcode : Opcode
  operand : Option Slot
  deriving DecidableEq, Repr, Inhabited

/-- An assembled program. -/
structure Assembly where
  /-- The image, of the size of the program ROM. -/
  image : List Byte
  symbols : Symbols
  deriving DecidableEq, Repr

/-- What the first pass has collected. -/
structure Draft where
  placed : Array Placed := #[]
  /-- Number of bytes of the instructions placed. -/
  size : Nat := 0
  labels : NameTable LabelDefinition := .empty
  definitions : NameTable VariableDefinition := .empty
  /-- The variables that operands went through. -/
  referenced : List String := []
  /-- A label on a line of its own that waits for an instruction. -/
  openLabel : Option (String × Span) := none
  deriving DecidableEq, Repr

namespace Draft

/-! ## First pass -/

/-- Refuse a label while another one is open. -/
def checkNoOpenLabel (d : Draft) (name : String) (span : Span) : Except AssemblyError Unit :=
  match d.openLabel with
  | some (pending, pendingSpan) => .error (.openLabel name pending span pendingSpan)
  | none => .ok ()

/-- Let no label be open. -/
def closeLabel (d : Draft) : Draft := { d with openLabel := none }

/-- Define a label at the current offset. -/
def defineLabel (d : Draft) (name : String) (span : Span) : Except AssemblyError Draft :=
  match d.labels.find? name with
  | some first => .error (.duplicateLabel name span first.span)
  | none =>
    let offset := UInt32.ofNat (min d.size (UInt32.size - 1))
    .ok { d with labels := d.labels.insert name ⟨offset, span⟩ }

def defineLabel? (d : Draft) : Option (String × Span) → Except AssemblyError Draft
  | some (name, span) => d.defineLabel name span
  | none => .ok d

/-- Branches must stay in the program. -/
def checkTarget (op : Opcode) (value : Word) (span : Span) : Except AssemblyError Unit :=
  if op = .bge ∧ (offsetLimit : Int) ≤ value.toInt then
    .error (.outOfRange value.toInt .program span)
  else .ok ()

/-- Remember the variables that an operand went through. -/
def remember (d : Draft) (through : List String) : Draft :=
  { d with referenced :=
      through.foldl (fun names n => if n ∈ names then names else names ++ [n]) d.referenced }

/-- Append an instruction whose operand is settled or pending. -/
def append (d : Draft) (op : Opcode) (operand : Option Slot) : Draft :=
  { d with placed := d.placed.push ⟨op, operand⟩, size := d.size + op.size }

/-- Append an instruction, resolving its operand if that is possible without
labels. -/
def place (d : Draft) (e : Emission) : Except AssemblyError Draft :=
  match e.operand with
  | none => .ok (d.append e.opcode none)
  | some operand => do
    let r ← Scope.resolve ⟨d.definitions, none⟩ operand.literal operand.span
    let d := d.remember r.through
    match r.value with
    | some value => do
      checkTarget e.opcode value operand.span
      pure (d.append e.opcode (some (.resolved value)))
    | none => pure (d.append e.opcode (some (.pending operand)))

def placeAll (d : Draft) : List Emission → Except AssemblyError Draft
  | [] => .ok d
  | e :: rest => do
    let d ← d.place e
    d.placeAll rest

/-- Define a variable. -/
def defineVariable (d : Draft) (name : String) (definition : VariableDefinition) : Draft :=
  { d with definitions := d.definitions.insert name definition }

/-- Report of a second definition of a variable, which is ignored. -/
def redefinitionEvent (name : String) (line : Nat) : Event :=
  .warn "Ignoring variable redefinition" [("name", name), ("line", toString line)]

/-- Take in the definition of a variable.  An open label is placed first. -/
def ingestVariable (d : Draft) (line : SourceLine) (name value : Lexeme) :
    Except AssemblyError (Logged Draft) := do
  let d ← d.closeLabel.defineLabel? d.openLabel
  match Literal.read? value.text.toList with
  | none => .error (.malformed line.number (.badValue value.text) (line.spanOf value))
  | some literal =>
    if d.definitions.contains name.text then
      pure (.noting (redefinitionEvent name.text line.number) d)
    else
      pure (.quiet (d.defineVariable name.text ⟨literal, line.spanOf value⟩))

/-- Take in an instruction line.  Its label, or the open one, lands on the
last instruction that the line stands for. -/
def ingestInstruction (d : Draft) (line : SourceLine) (label : Option Lexeme)
    (mnemonic : Lexeme) (arguments : List Lexeme) : Except AssemblyError Draft := do
  let (label, d) ←
    match label with
    | some name => do
      d.checkNoOpenLabel name.text (line.spanOf name)
      pure (some (name.text, line.spanOf name), d)
    | none => pure (d.openLabel, d.closeLabel)
  let emissions ← Expansion.expand line mnemonic arguments
  let d ← d.placeAll emissions.dropLast
  let d ← d.defineLabel? label
  d.placeAll emissions.getLast?.toList

def ingest (d : Draft) (line : SourceLine) : Except AssemblyError (Logged Draft) :=
  match Statement.read? line.text with
  | none => .error (.malformed line.number .unreadable line.span)
  | some (.label name) => do
    d.checkNoOpenLabel name.text (line.spanOf name)
    pure (.quiet { d with openLabel := some (name.text, line.spanOf name) })
  | some (.definition name value) => d.ingestVariable line name value
  | some (.instruction label mnemonic arguments) => do
    let d ← d.ingestInstruction line label mnemonic arguments
    pure (.quiet d)

def ingestAll (d : Draft) : List SourceLine → Logged (Except AssemblyError Draft)
  | [] => .quiet (.ok d)
  | line :: rest =>
    match d.ingest line with
    | .error e => .quiet (.error e)
    | .ok next =>
      let last := next.value.ingestAll rest
      ⟨last.value, next.log ++ last.log⟩

/-! ## Second pass -/

def scope (d : Draft) : Scope := ⟨d.definitions, some d.labels⟩

/-- Settle the operand of an instruction; instructions without one get zero. -/
def settle (d : Draft) (p : Placed) : Except AssemblyError (Word × List String) :=
  match p.operand with
  | none => .ok (0, [])
  | some (.resolved value) => .ok (value, [])
  | some (.pending operand) => do
    let r ← d.scope.resolve operand.literal operand.span
    let value := r.value.getD 0
    checkTarget p.opcode value operand.span
    pure (value, r.through)

/-- The bytes of instructions, and the draft with the variables that their
operands went through. -/
def emit (d : Draft) : List Placed → Except AssemblyError (List Byte × Draft)
  | [] => .ok ([], d)
  | p :: rest => do
    let (value, through) ← d.settle p
    let (bytes, d) ← (d.remember through).emit rest
    pure ((Instruction.ofOpcode p.opcode value).encode ++ bytes, d)

def valuesOf (d : Draft) : List String → Except AssemblyError (NameTable Word)
  | [] => .ok .empty
  | name :: rest => do
    let r ← d.scope.resolve (.reference name) ⟨0, 0⟩
    let values ← d.valuesOf rest
    pure (values.insert name (r.value.getD 0))

def labelOffsets (d : Draft) : NameTable Address :=
  NameTable.ofList (d.labels.entries.map fun e => (e.1, e.2.offset))

/-- Resolve what is pending and emit the image. -/
def finish (d : Draft) : Except AssemblyError Assembly :=
  match d.openLabel with
  | some (name, span) => .error (.danglingLabel name span)
  | none =>
    if d.size > offsetLimit then .error (.tooLarge d.size)
    else do
      let (bytes, d) ← d.emit d.placed.toList
      let values ← d.valuesOf d.referenced
      pure
        { image := bytes ++ List.replicate (offsetLimit - bytes.length) 0
          symbols := { labels := d.labelOffsets, values } }

end Draft

/-- Assemble a source text; redefined variables are reported on the way. -/
def assemble (source : String) : Logged (Except AssemblyError Assembly) :=
  let draft := Draft.ingestAll {} (SourceLine.ofSource source)
  ⟨draft.value >>= Draft.finish, draft.log⟩

end StackRisc
