import StackRisc.Listing
import StackRisc.Tool.Request

/-!
# StackRisc.Tool.Dump

The command that lists a program image, with its labels.
-/

namespace StackRisc.Tool

variable {m : Type → Type} [Monad m] [Host m]

structure DumpOptions where
  input : String
  symbols : Option String := none
  deriving DecidableEq, Repr, Inhabited

/-- An offset in four columns. -/
def offsetText (offset : Nat) : String := Text.padLeft 4 '0' (Text.hexUpper offset)

/-- Print the labels of an entry, and then the entry. -/
def dumpEntry (symbols : Symbols) (e : ListingEntry) : Task m Unit := do
  (symbols.labelsAt (UInt32.ofNat e.offset)).forM fun name =>
    ExceptT.lift (Host.printLine (name ++ ":"))
  match e.content with
  | .ok i => ExceptT.lift (Host.printLine (offsetText e.offset ++ "  " ++ i.text))
  | .error b => do
    report (.warn (Opcode.invalidMessage b) [("offset", toString e.offset)])
    ExceptT.lift (Host.printLine (offsetText e.offset ++ "  ???"))

def dumpImage (o : DumpOptions) : Task m Unit := do
  report (.info "Reading program image" [("path", o.input)])
  let image ← readBytes o.input
  let symbols ← loadSymbols o.input o.symbols
  (Listing.ofImage image).forM (dumpEntry symbols)

end StackRisc.Tool
