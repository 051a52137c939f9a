import StackRisc.Assembly.Draft
import StackRisc.Tool.Request

/-!
# StackRisc.Tool.Assemble

The command that assembles a source file.  Both the image and the symbols
are written, or the image is removed again.
-/

namespace StackRisc.Tool

variable {m : Type → Type} [Monad m] [Host m]

/-- What to assemble, and where to put it. -/
structure AssembleOptions where
  source : String
  output : String
  symbols : Option String := none
  deriving DecidableEq, Repr, Inhabited

/-- Where the symbols go. -/
def AssembleOptions.symbolsPath (o : AssembleOptions) : String :=
  o.symbols.getD (Symbols.pathFor o.output)

/-- Remove an image whose symbols could not be written. -/
def withdraw (output : String) : m Unit := do
  match ← Host.remove output with
  | .ok () => pure ()
  | .error e =>
    Host.report (.warn ("Could not remove the program image: " ++ e.message) [("path", output)])

/-- Write an image and its symbols. -/
def writeAssembly (a : Assembly) (output symbolsPath : String) : Task m Unit := do
  request (Host.write output a.image) (.write output)
  report (.info "Wrote program image"
    [("path", output), ("bytes", toString a.image.length)])
  match ← ExceptT.lift (Host.write symbolsPath (textBytes a.symbols.toJson)) with
  | .ok () => report (.info "Wrote debug symbols" [("path", symbolsPath)])
  | .error e => do
    ExceptT.lift (withdraw output)
    throw (.write symbolsPath e)

def assembleFile (o : AssembleOptions) : Task m Unit := do
  report (.info "Reading program" [("path", o.source)])
  let source ← readText o.source
  let assembled := assemble source
  assembled.log.forM report
  match assembled.value with
  | .error e => throw (.assembly e)
  | .ok a => writeAssembly a o.output o.symbolsPath

end StackRisc.Tool
