import StackRisc.Host.Disk

/-!
# StackRisc.FileSystem

The host files that a program can read, by the path it gives.  Files come
from a table, or from a directory of the host that no path leads out of.
-/

namespace StackRisc

inductive FileError where
  /-- A table holds no such file. -/
  | notInTable
  /-- The path may lead out of the data directory. -/
  | outside (path : String)
  | host (cause : HostError)
  deriving DecidableEq, Repr, Inhabited

def FileError.message : FileError → String
  | notInTable => "file not found"
  | outside path => path ++ " is outside of the data directory"
  | host cause => cause.message

structure FileSystem where
  read : String → Except FileError (List Byte)

namespace FileSystem

/-- Files of a table; of two entries for one path the later one counts. -/
def ofTable (files : List (String × List Byte)) : FileSystem where
  read path :=
    match files.reverse.find? fun file => Path.components file.1 == Path.components path with
    | some file => .ok file.2
    | none => .error .notInTable

def empty : FileSystem := ofTable []

/-- Whether every component of a path is a plain name. -/
def isContained (path : String) : Bool :=
  (Path.components path).all fun
    | .name _ => true
    | _ => false

/-- Files under a directory of the host, read by the host's own rule. -/
def rooted (root : String) (read : String → Except HostError (List Byte)) : FileSystem where
  read path :=
    if isContained path then (read (Path.join root path)).mapError .host
    else .error (.outside path)

end FileSystem

end StackRisc
