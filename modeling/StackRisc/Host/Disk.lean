import StackRisc.Word
import StackRisc.Host.Path

/-!
# StackRisc.Host.Disk

A directory tree as a value, with the answers that a Linux host gives when
its files are read, written, removed or created.  A path is followed from
left to right, from the top or from the working directory and through
symbolic links, and the first segment that cannot be entered decides the
error.  Several names may be names of one file.
-/

namespace StackRisc

/-! ## Host errors -/

/-- Why the host refused a request. -/
inductive HostError where
  | notFound
  | alreadyExists
  | notDirectory
  | isDirectory
  | nameTooLong
  | nulInName
  | invalidText
  | other (message : String)
  deriving DecidableEq, Repr, Inhabited

def HostError.message : HostError → String
  | notFound => "No such file or directory (os error 2)"
  | alreadyExists => "File exists (os error 17)"
  | notDirectory => "Not a directory (os error 20)"
  | isDirectory => "Is a directory (os error 21)"
  | nameTooLong => "File name too long (os error 36)"
  | nulInName => "file name contained an unexpected NUL byte"
  | invalidText => "stream did not contain valid UTF-8"
  | other message => message

/-- A path led through more links than the host follows. -/
def HostError.tooManyLinks : HostError :=
  other "Too many levels of symbolic links (os error 40)"

/-! ## Trees -/

/-- What a name in a directory stands for. -/
inductive Entry where
  /-- A file, by its number.  Names with the same number are names of one
  file. -/
  | file (number : Nat)
  | directory
  /-- A symbolic link to a path, which starts where the link is. -/
  | link (target : String)
  deriving DecidableEq, Repr, Inhabited

/-- A file or a directory, as it is seen. -/
inductive Node where
  | file (contents : List Byte)
  | directory
  deriving DecidableEq, Repr, Inhabited

/-- A directory tree.  Names count from the top of the host. -/
structure Disk where
  /-- The working directory.  It is there, with all directories above it,
  without an entry. -/
  working : List String := ["work"]
  tree : List (List String × Entry) := []
  /-- What the files hold, by their numbers. -/
  files : List (Nat × List Byte) := []
  deriving Repr, Inhabited

namespace Disk

/-- The longest path and the longest name, in bytes. -/
def maxPath : Nat := 4095

def maxName : Nat := 255

/-- The most links that are followed for one path. -/
def maxLinks : Nat := 40

/-- Put a value under a key, in place of the one that is there. -/
def assign {α β : Type} [BEq α] (key : α) (value : β) (l : List (α × β)) : List (α × β) :=
  (key, value) :: l.filter (·.1 != key)

/-- What some names stand for. -/
def find? (d : Disk) (names : List String) : Option Entry :=
  if names.isPrefixOf d.working then some .directory else d.tree.lookup names

/-- Put an entry under some names. -/
def place (d : Disk) (names : List String) (entry : Entry) : Disk :=
  { d with tree := assign names entry d.tree }

def contents (d : Disk) (number : Nat) : List Byte := (d.files.lookup number).getD []

def fill (d : Disk) (number : Nat) (contents : List Byte) : Disk :=
  { d with files := assign number contents d.files }

/-- A number that no file has. -/
def fresh (d : Disk) : Nat :=
  d.tree.foldr (fun e n => match e.2 with | .file number => max n (number + 1) | _ => n) 0

/-- Put a new file under some names. -/
def create (d : Disk) (names : List String) (contents : List Byte) : Disk :=
  (d.place names (.file d.fresh)).fill d.fresh contents

/-- The files and directories below the working directory, by their names
from there. -/
def entries (d : Disk) : List (List String × Node) :=
  d.tree.filterMap fun (names, entry) =>
    if d.working.isPrefixOf names then
      match entry with
      | .file number => some (names.drop d.working.length, .file (d.contents number))
      | .directory => some (names.drop d.working.length, .directory)
      | .link _ => none
    else none

/-- A disk with files and directories below its working directory. -/
def ofEntries (entries : List (List String × Node)) : Disk :=
  entries.foldl (fun d (names, node) =>
    match node with
    | .file contents => d.create (d.working ++ names) contents
    | .directory => d.place (d.working ++ names) .directory) {}

/-! ## Paths -/

/-- Check that names stand for a directory. -/
def enter (d : Disk) (names : List String) : Except HostError Unit :=
  match d.find? names with
  | none => .error .notFound
  | some .directory => .ok ()
  | some _ => .error .notDirectory

/-- Where a segment leads from a directory.  Nothing is above the top. -/
def step (names : List String) (segment : String) : Except HostError (List String) :=
  if segment = "" ∨ segment = "." then .ok names
  else if segment = ".." then .ok names.dropLast
  else if segment.utf8ByteSize > maxName then .error .nameTooLong
  else .ok (names ++ [segment])

/-- Where a path starts, and the segments to follow from there. -/
def start (base : List String) (path : String) : List String × List String :=
  match Path.segments path with
  | "" :: rest => ([], rest)
  | segments => (base, segments)

/-- Follow segments from a directory, up to the first link.  There, the
segments of its path and those that are left are handed on.  The last name
may be free. -/
def walk (d : Disk) (onLink : List String → List String → Except HostError (List String)) :
    (names : List String) → (segments : List String) → Except HostError (List String)
  | names, [] => .ok names
  | names, segment :: rest => do
    d.enter names
    let found ← step names segment
    match d.find? found with
    | some (.link target) =>
      let (top, segments) := start names target
      onLink top (segments ++ rest)
    | _ => d.walk onLink found rest

/-- Follow segments from a directory, through at most this many links. -/
def follow (d : Disk) : (links : Nat) → (names : List String) → (segments : List String) →
    Except HostError (List String)
  | 0 => d.walk fun _ _ => .error .tooManyLinks
  | links + 1 => d.walk (d.follow links)

/-- Refuse a text that no host takes as a path. -/
def checkPath (path : String) : Except HostError Unit :=
  if '\x00' ∈ path.toList then .error .nulInName
  else if path = "" then .error .notFound
  else if path.utf8ByteSize > maxPath then .error .nameTooLong
  else .ok ()

/-- The names a path leads to; the last one may be free. -/
def resolve (d : Disk) (path : String) : Except HostError (List String) := do
  checkPath path
  let (top, segments) := start d.working path
  d.follow maxLinks top segments

/-- The directory before the last segment of a path. -/
def parent (d : Disk) (path : String) : Except HostError (List String) := do
  let (top, segments) := start d.working path
  let names ← d.follow maxLinks top segments.dropLast
  d.enter names
  pure names

/-- The names that a path itself stands under: a link there is not
followed. -/
def locate (d : Disk) (path : String) : Except HostError (List String) := do
  step (← d.parent path) ((start d.working path).2.getLast?.getD "")

/-! ## Requests -/

def read (d : Disk) (path : String) : Except HostError (List Byte) := do
  match d.find? (← d.resolve path) with
  | some (.file number) => .ok (d.contents number)
  | some .directory => .error .isDirectory
  | some (.link _) => .error .tooManyLinks
  | none => .error .notFound

def contains (d : Disk) (path : String) : Bool :=
  match d.resolve path with
  | .ok names => (d.find? names).isSome
  | .error _ => false

def isDirectory (d : Disk) (path : String) : Bool :=
  match d.resolve path with
  | .ok names => d.find? names == some .directory
  | .error _ => false

/-- A path without the slashes at its end. -/
def dropSlashes (path : String) : String :=
  let cs := (path.toList.reverse.dropWhile (· == '/')).reverse
  if cs = [] ∧ path ≠ "" then "/" else String.ofList cs

/-- Write a whole file, creating it if its name is free.  A slash at the end
asks for a directory: it is refused once the directories before the last
name were entered, and the name itself is not looked at.  A slash at the end
of a link's path is refused as well, but there the name before it decides the
error. -/
def write (d : Disk) (path : String) (contents : List Byte) : Except HostError Disk := do
  checkPath path
  if dropSlashes path ≠ path then
    let _ ← d.parent (dropSlashes path)
    .error .isDirectory
  else
    let names ← d.resolve path
    match d.find? names with
    | some (.file number) => .ok (d.fill number contents)
    | some .directory => .error .isDirectory
    | some (.link _) => .error .tooManyLinks
    | none => .ok (d.create names contents)

/-- Remove a name of a file, or a link.  A slash at the end asks for a
directory, which is refused all the same. -/
def remove (d : Disk) (path : String) : Except HostError Disk := do
  checkPath path
  let names ← d.locate (dropSlashes path)
  match d.find? names with
  | some .directory => .error .isDirectory
  | some _ =>
    if dropSlashes path ≠ path then .error .notDirectory
    else .ok { d with tree := d.tree.filter (·.1 != names) }
  | none => .error .notFound

def createDirectory (d : Disk) (path : String) : Except HostError Disk := do
  checkPath path
  let names ← d.locate (dropSlashes path)
  match d.find? names with
  | some _ => .error .alreadyExists
  | none => .ok (d.place names .directory)

/-- A path and the paths above it, the longest first.  A path of one name
has none above it. -/
def ancestry (path : String) : List String :=
  let segments := (Path.segments path).filter fun s => s ≠ "" ∧ s ≠ "."
  let front := if Path.isAbsolute path then "/" else ""
  let shorter := (List.range segments.length).reverse.filter (0 < ·)
  path :: shorter.map fun n => front ++ "/".intercalate (segments.take n)

/-- Create one directory, unless it is there. -/
def ensureDirectory (d : Disk) (path : String) : Disk × Except HostError Unit :=
  match d.createDirectory path with
  | .ok d => (d, .ok ())
  | .error e => (d, if d.isDirectory path then .ok () else .error e)

/-- Create the first of some paths, each the parent of the one before, after
creating those that are missing.  What was created before a refusal stays. -/
def createAll (d : Disk) : List String → Disk × Except HostError Unit
  | [] => (d, .ok ())
  | path :: above =>
    match d.ensureDirectory path with
    | (d, .error .notFound) =>
      match d.createAll above with
      | (d, .ok ()) => d.ensureDirectory path
      | refused => refused
    | settled => settled

/-- Create a directory and those above it; one that exists is left alone. -/
def createDirectories (d : Disk) (path : String) : Disk × Except HostError Unit :=
  if path = "" then (d, .ok ()) else d.createAll (ancestry path)

/-- Put a file in place, creating the directories above it; what the host
refuses is left out. -/
def install (d : Disk) (path : String) (contents : List Byte) : Disk :=
  let directory := "/".intercalate ((Path.segments path).dropLast)
  let (d, _) := d.createDirectories directory
  (d.write path contents).toOption.getD d

end Disk

end StackRisc
