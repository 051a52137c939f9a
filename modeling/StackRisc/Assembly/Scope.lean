import StackRisc.Assembly.Expansion
import StackRisc.NameTable

/-!
# StackRisc.Assembly.Scope

The names that an operand can refer to.  A name is a variable first and a
label second; a variable stands for its own operand, which may be a name
again.  A chain of variables is followed until it gives a number or a label,
meets an unknown name, or comes back to a variable it went through.
-/

namespace StackRisc

/-- Where a label points, and where it was defined. -/
structure LabelDefinition where
  offset : Address
  span : Span
  deriving DecidableEq, Repr, Inhabited

/-- The operand that a variable stands for, and where it is written. -/
structure VariableDefinition where
  literal : Literal
  span : Span
  deriving DecidableEq, Repr, Inhabited

/-- The names in sight.  While labels are still being collected there are
none in sight. -/
structure Scope where
  definitions : NameTable VariableDefinition
  labels : Option (NameTable LabelDefinition)
  deriving DecidableEq, Repr

/-- What following an operand gave. -/
structure Resolution where
  /-- The value; `none` if it has to wait for the labels. -/
  value : Option Word
  /-- The variables gone through, in order. -/
  through : List String := []
  deriving DecidableEq, Repr

/-- The value of a number, if it is in the range of operands. -/
def checkRange (value : Int) (span : Span) : Except AssemblyError Word :=
  if 0 ≤ value ∧ value ≤ Word.largest then .ok (Int32.ofInt value)
  else .error (.outOfRange value .word span)

namespace Scope

/-- Follow an operand, having gone through some variables already. -/
def resolveFrom (s : Scope) : (fuel : Nat) → (visited : List String) → Literal → Span →
    Except AssemblyError Resolution
  | _, _, .hex value, span => do
    let w ← checkRange value span
    pure ⟨some w, []⟩
  | _, _, .decimal value, span => do
    let w ← checkRange value span
    pure ⟨some w, []⟩
  | fuel, visited, .reference name, span =>
    match s.definitions.find? name with
    | some definition =>
      if name ∈ visited then .error (.circular name span)
      else
        match fuel with
        | 0 => .error (.circular name span)
        | fuel + 1 => do
          let r ← s.resolveFrom fuel (name :: visited) definition.literal definition.span
          pure ⟨r.value, name :: r.through⟩
    | none =>
      match s.labels with
      | none => .ok ⟨none, []⟩
      | some labels =>
        match labels.find? name with
        | some label => do
          let w ← checkRange label.offset.toNat span
          pure ⟨some w, []⟩
        | none => .error (.unresolved name span)

/-- Follow an operand.  A chain that comes back to no variable is no longer
than the table of variables. -/
def resolve (s : Scope) (literal : Literal) (span : Span) : Except AssemblyError Resolution :=
  s.resolveFrom s.definitions.size [] literal span

end Scope

end StackRisc
