import StackRisc.Assembly.Draft

/-!
# StackRisc.Proofs.Assembly.Program

A source text as one program, seen whole: the entries of its lines, the
instructions they stand for, every variable and every label, without passes
and without an order in which names become known.

* `SourceProgram.definition?` — the first definition of a variable counts;
* `SourceProgram.label?` — a label marks the last instruction of its line;
* `Bindings.Denotes` — the number that an operand stands for when every name
  is in sight;
* `SourceProgram.Means` — the instruction that an emission stands for.
-/

namespace StackRisc

/-! ## Names and numbers -/

/-- What names stand for: variables for an operand, labels for an offset. -/
structure Bindings where
  definition? : String → Option Literal
  label? : String → Option Nat

namespace Bindings

/-- Following variables leads from one operand to another, through some
names in order. -/
inductive Leads (b : Bindings) : Literal → List String → Literal → Prop where
  | refl (literal : Literal) : Leads b literal [] literal
  | step {name : String} {value last : Literal} {through : List String} :
      b.definition? name = some value → Leads b value through last →
        Leads b (.reference name) (name :: through) last

/-- The number that an operand which is no variable says. -/
def Says (b : Bindings) : Literal → Int → Prop
  | .hex n, v | .decimal n, v => n = v
  | .reference name, v =>
      b.definition? name = none ∧ ∃ n : Nat, b.label? name = some n ∧ (n : Int) = v

/-- An operand stands for a number: variables first, labels second. -/
def Denotes (b : Bindings) (literal : Literal) (v : Int) : Prop :=
  ∃ through last, b.Leads literal through last ∧ b.Says last v

end Bindings

/-! ## Entries -/

/-- What a line adds to a program. -/
inductive SourceEntry where
  /-- A label on a line of its own. -/
  | label (name : String)
  /-- A variable and the operand that it stands for. -/
  | definition (name : String) (value : Literal)
  /-- Instructions, with the label in front of the line. -/
  | code (mark : Option String) (emissions : List Emission)
  deriving DecidableEq, Repr

/-- Number of bytes of instructions to emit. -/
def codeSize : List Emission → Nat
  | [] => 0
  | e :: es => e.opcode.size + codeSize es

@[simp] theorem codeSize_nil : codeSize [] = 0 := rfl

@[simp] theorem codeSize_cons (e : Emission) (es : List Emission) :
    codeSize (e :: es) = e.opcode.size + codeSize es := rfl

@[simp] theorem codeSize_append (xs ys : List Emission) :
    codeSize (xs ++ ys) = codeSize xs + codeSize ys := by
  induction xs with
  | nil => exact (Nat.zero_add _).symm
  | cons e xs ih => rw [List.cons_append, codeSize_cons, codeSize_cons, ih, Nat.add_assoc]

namespace SourceEntry

/-- The entry of a statement, if its operands can be read. -/
def ofStatement? (line : SourceLine) : Statement → Option SourceEntry
  | .label name => some (.label name.text)
  | .definition name value => (Literal.read? value.text.toList).map (.definition name.text)
  | .instruction mark mnemonic arguments =>
    match Expansion.expand line mnemonic arguments with
    | .ok emissions => some (.code (mark.map (·.text)) emissions)
    | .error _ => none

/-- The entry of a line, if the line can be read and expanded. -/
def ofLine? (line : SourceLine) : Option SourceEntry :=
  (Statement.read? line.text).bind (ofStatement? line)

/-- The instructions of an entry. -/
def emissions : SourceEntry → List Emission
  | .label _ | .definition .. => []
  | .code _ es => es

/-- The operand of a variable that an entry defines. -/
def definition? (name : String) : SourceEntry → Option Literal
  | .definition other value => if other = name then some value else none
  | .label _ | .code .. => none

/-- The label that waits for the next entry. -/
def waiting? : SourceEntry → Option String
  | .label name => some name
  | .definition .. | .code .. => none

/-- The label that an entry places, at its distance from the start of the
entry; `waiting` is the label of the line before. -/
def placed? (waiting : Option String) : SourceEntry → Option (String × Nat)
  | .label _ => none
  | .definition .. => waiting.map (·, 0)
  | .code mark es => (mark.or waiting).map (·, codeSize es.dropLast)

/-- Whether an entry may follow a line with a label of its own. -/
def admits (waiting : Option String) : SourceEntry → Prop
  | .label _ | .code (some _) _ => waiting = none
  | .definition .. | .code none _ => True

end SourceEntry

/-! ## Programs -/

/-- The entries of all lines, in order. -/
abbrev SourceProgram := List SourceEntry

namespace SourceProgram

/-- The program of lines, if every line has an entry. -/
def ofLines? : List SourceLine → Option SourceProgram
  | [] => some []
  | line :: rest => (SourceEntry.ofLine? line).bind fun e => (ofLines? rest).map (e :: ·)

/-- The program of a source text, if every line can be read and expanded. -/
def ofSource? (source : String) : Option SourceProgram := ofLines? (SourceLine.ofSource source)

/-- The instructions to emit, in order. -/
def emissions (p : SourceProgram) : List Emission := p.flatMap SourceEntry.emissions

/-- Number of bytes of the instructions. -/
def size (p : SourceProgram) : Nat := codeSize p.emissions

/-- The operand of a variable; the first definition counts. -/
def definition? (p : SourceProgram) (name : String) : Option Literal :=
  p.findSome? (SourceEntry.definition? name)

/-- The label that waits after entries. -/
def waitingAfter (waiting : Option String) : SourceProgram → Option String
  | [] => waiting
  | e :: rest => waitingAfter e.waiting? rest

/-- The labels that entries place, with their offsets: the entries start at
an offset, behind a label that may wait. -/
def labelsFrom (waiting : Option String) (offset : Nat) : SourceProgram → List (String × Nat)
  | [] => []
  | e :: rest =>
    (e.placed? waiting).toList.map (fun l => (l.1, offset + l.2))
      ++ labelsFrom e.waiting? (offset + codeSize e.emissions) rest

/-- All labels with their offsets. -/
def labels (p : SourceProgram) : List (String × Nat) := labelsFrom none 0 p

/-- The offset of a label. -/
def label? (p : SourceProgram) (name : String) : Option Nat := p.labels.lookup name

/-- No label is named while another one waits. -/
def Unblocked (waiting : Option String) : SourceProgram → Prop
  | [] => True
  | e :: rest => e.admits waiting ∧ Unblocked e.waiting? rest

/-- The labels of a program can all be placed. -/
structure LabelsSound (p : SourceProgram) : Prop where
  /-- No label is placed twice. -/
  distinct : (p.labels.map Prod.fst).Nodup
  /-- No label is named while another one waits. -/
  unblocked : p.Unblocked none
  /-- No label waits at the end. -/
  closed : p.waitingAfter none = none

/-- All names of a program. -/
def bindings (p : SourceProgram) : Bindings := ⟨p.definition?, p.label?⟩

/-- The instruction that an emission stands for: its operand stands for a
number in range, and a branch stays in the program. -/
inductive Means (p : SourceProgram) : Emission → Instruction → Prop where
  | bare (op : Opcode) : Means p ⟨op, none⟩ (.ofOpcode op 0)
  | withOperand {op : Opcode} {operand : Operand} {v : Int} :
      p.bindings.Denotes operand.literal v → 0 ≤ v → v ≤ Word.largest →
        (op = .bge → v < offsetLimit) →
          Means p ⟨op, some operand⟩ (.ofOpcode op (Int32.ofInt v))

/-! ## Programs in parts -/

variable (p q : SourceProgram) (e : SourceEntry) (waiting : Option String)

@[simp] theorem emissions_append : emissions (p ++ q) = p.emissions ++ q.emissions :=
  List.flatMap_append

@[simp] theorem emissions_singleton : emissions [e] = e.emissions := List.flatMap_singleton _ _

@[simp] theorem size_append : size (p ++ q) = p.size + q.size := by
  simp [size]

@[simp] theorem size_singleton : size [e] = codeSize e.emissions := by
  simp [size]

theorem size_cons : size (e :: p) = codeSize e.emissions + p.size := by
  rw [← size_singleton, ← size_append]
  rfl

@[simp] theorem definition?_append (name : String) :
    definition? (p ++ q) name = (p.definition? name).or (q.definition? name) :=
  List.findSome?_append

@[simp] theorem definition?_singleton (name : String) :
    definition? [e] name = e.definition? name := by
  rw [definition?, List.findSome?_singleton]

/-- The label that waits is handed on from one part of a program to the next. -/
theorem waitingAfter_append :
    waitingAfter waiting (p ++ q) = waitingAfter (waitingAfter waiting p) q := by
  induction p generalizing waiting with
  | nil => rfl
  | cons e p ih => exact ih e.waiting?

/-- The labels of a second part are placed behind the first one. -/
theorem labelsFrom_append (offset : Nat) :
    labelsFrom waiting offset (p ++ q) =
      labelsFrom waiting offset p ++
        labelsFrom (waitingAfter waiting p) (offset + p.size) q := by
  induction p generalizing waiting offset with
  | nil => rfl
  | cons e p ih =>
      simp only [List.cons_append, labelsFrom, ih, waitingAfter, List.append_assoc]
      rw [size_cons, Nat.add_assoc]

theorem labels_append :
    labels (p ++ q) = p.labels ++ labelsFrom (p.waitingAfter none) p.size q := by
  rw [labels, labels, labelsFrom_append, Nat.zero_add]

/-- No label is left behind in either part. -/
theorem unblocked_append :
    Unblocked waiting (p ++ q) ↔ Unblocked waiting p ∧ Unblocked (waitingAfter waiting p) q := by
  induction p generalizing waiting with
  | nil => simp [Unblocked, waitingAfter]
  | cons e p ih => simp [Unblocked, waitingAfter, ih, and_assoc]

end SourceProgram

/-- The bytes of instructions, filled up with zeros to the size of an image. -/
def Instruction.image (is : List Instruction) : List Byte :=
  let bytes := is.flatMap Instruction.encode
  bytes ++ List.replicate (offsetLimit - bytes.length) 0

end StackRisc
