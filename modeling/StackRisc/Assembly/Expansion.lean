import StackRisc.Assembly.Error
import StackRisc.Instruction
import StackRisc.Literal

/-!
# StackRisc.Assembly.Expansion

The instructions that a line stands for.  Most mnemonics stand for one; two
forms are macros: `STR A B` loads `B`, pushes it, loads `A` and stores, and
`PG B` is `STR $0 B`.
-/

namespace StackRisc

/-- An operand as written. -/
structure Operand where
  literal : Literal
  span : Span
  deriving DecidableEq, Repr, Inhabited

/-- An instruction to emit, its operand not yet resolved. -/
structure Emission where
  opcode : Opcode
  operand : Option Operand := none
  deriving DecidableEq, Repr, Inhabited

namespace Expansion

def operand (line : SourceLine) (token : Lexeme) : Except AssemblyError Operand :=
  match Literal.read? token.text.toList with
  | some literal => .ok ⟨literal, line.spanOf token⟩
  | none => .error (.malformed line.number (.badOperand token.text) (line.spanOf token))

/-- The refusal of a wrong number of operands. -/
def arityError (line : SourceLine) (mnemonic : String) (expected : List Nat)
    (arguments : List Lexeme) : AssemblyError :=
  .malformed line.number (.arity mnemonic expected arguments.length) line.span

/-- Store a value at an address. -/
def storeImmediate (address value : Operand) : List Emission :=
  [⟨.ldi, some value⟩, ⟨.push, none⟩, ⟨.ldi, some address⟩, ⟨.str, none⟩]

def expand (line : SourceLine) (mnemonic : Lexeme) (arguments : List Lexeme) :
    Except AssemblyError (List Emission) :=
  if mnemonic.text = "PG" then
    match arguments with
    | [value] => do
      let value ← operand line value
      pure (storeImmediate ⟨.hex 0, line.span⟩ value)
    | _ => .error (arityError line mnemonic.text [1] arguments)
  else
    match Opcode.ofName? mnemonic.text with
    | none => .error (.unknownMnemonic mnemonic.text (line.spanOf mnemonic))
    | some .str =>
      match arguments with
      | [] => .ok [⟨.str, none⟩]
      | [address, value] => do
        let address ← operand line address
        let value ← operand line value
        pure (storeImmediate address value)
      | _ => .error (arityError line mnemonic.text [0, 2] arguments)
    | some op =>
      if op.hasOperand then
        match arguments with
        | [value] => do
          let value ← operand line value
          pure [⟨op, some value⟩]
        | _ => .error (arityError line mnemonic.text [1] arguments)
      else
        match arguments with
        | [] => .ok [⟨op, none⟩]
        | _ => .error (arityError line mnemonic.text [0] arguments)

end Expansion

end StackRisc
