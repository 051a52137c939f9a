import StackRisc.Text.Blank

/-!
# StackRisc.Host.Path

Paths as text and as components.  Two paths name the same entry when their
components agree: repeated slashes, a slash at the end and `.` after the
first segment carry no meaning.
-/

namespace StackRisc.Path

open Text

/-- A part of a path that carries meaning. -/
inductive Component where
  /-- A slash at the front. -/
  | root
  /-- `.` as the first segment. -/
  | here
  /-- `..` -/
  | parent
  | name (text : String)
  deriving DecidableEq, Repr, Inhabited

/-- The segments of a path, between its slashes. -/
def segments (path : String) : List String := (pieces '/' path.toList).map String.ofList

/-- The component of a segment that is not the first. -/
def component? (segment : String) : Option Component :=
  if segment = "" ∨ segment = "." then none
  else if segment = ".." then some .parent
  else some (.name segment)

def components (path : String) : List Component :=
  match segments path with
  | [] => []
  | first :: rest =>
    let front :=
      if first = "" then (if rest = [] then [] else [.root])
      else if first = "." then [.here]
      else (component? first).toList
    front ++ rest.filterMap component?

def isAbsolute (path : String) : Bool := path.startsWith "/"

/-- A path taken relative to another one.  An absolute path stays as it is. -/
def join (base path : String) : String :=
  if isAbsolute path ∨ base = "" then path
  else if base.endsWith "/" then base ++ path
  else base ++ "/" ++ path

end StackRisc.Path
