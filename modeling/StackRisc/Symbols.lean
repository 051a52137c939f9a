import StackRisc.NameTable
import StackRisc.Word

/-!
# StackRisc.Symbols

The names of an assembled program that are kept for debugging.
-/

namespace StackRisc

/-- Labels with their program offset, and variables with their value. -/
structure Symbols where
  labels : NameTable Address := .empty
  values : NameTable Word := .empty
  deriving DecidableEq, Repr, Inhabited

namespace Symbols

/-- Where the symbols of an image are kept unless said otherwise. -/
def pathFor (image : String) : String := image ++ "_dbg"

/-- The offset of a label, whose name may be written in any ASCII case. -/
def label? (s : Symbols) (name : String) : Option Address := s.labels.find? name.toUpper

/-- The labels at an offset, in name order. -/
def labelsAt (s : Symbols) (offset : Address) : List String :=
  (s.labels.entries.filter (·.2 == offset)).map Prod.fst

def names (s : Symbols) : List String := s.labels.names ++ s.values.names

end Symbols

end StackRisc
