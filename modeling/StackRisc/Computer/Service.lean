import StackRisc.Computer.Action

/-!
# StackRisc.Computer.Service

What each host service does.  Arguments are popped from the operand stack in
the current width, and results are pushed the same way.
-/

namespace StackRisc

open StackRisc.Action

/-! ## Control and output -/

/-- End the program with the popped exit code. -/
def exitService : Action Unit := do
  let code ← pop
  note (.info "Program exited" [("code", toString code.toInt)])
  modify fun c => { c with exitCode := some code, running := false }

def printLine (line : String) : Action Unit :=
  modify fun c => { c with console := c.console.push line }

/-- Print the text at the popped address. -/
def printService : Action Unit := do
  let pointer ← pop
  let text ← readText pointer.toAddress
  note (.info ("APPLICATION: " ++ text))
  printLine text

/-- Print the popped value in hexadecimal. -/
def assertService : Action Unit := do
  let value ← pop
  let line := "ASSERT: 0x" ++ Text.padLeft 2 '0' (Text.hex value.toAddress.toNat)
  note (.info line)
  printLine line

/-! ## Files -/

/-- Copy bytes to successive addresses until the count is reached; it is
reported when there are too few. -/
def copyChunk (path : String) : (contents : List Byte) → (count : Nat) → (destination : Address) →
    Action Unit
  | _, 0, _ => pure ()
  | [], _ + 1, _ => note (.warn "File chunk overflowed the file contents" [("path", path)])
  | b :: rest, count + 1, destination => do
    write8 destination b
    copyChunk path rest count (destination + 1)

/-- The contents of a file from an offset; a negative offset lies past the end. -/
def chunkAt (contents : List Byte) (offset : Word) : List Byte :=
  if offset < 0 then [] else contents.drop offset.toInt.toNat

/-- The length of a file as a word, at most the largest one. -/
def fileLength (contents : List Byte) : Word :=
  Int32.ofNat (min contents.length Word.largest)

def readFile (path : String) : Action (List Byte) := do
  let c ← get
  match c.files.read path with
  | .ok contents => pure contents
  | .error cause => fail (.file path cause)

/-- Copy part of a file into memory and push the length of the file.  Popped
are the address of the path, the destination, the offset in the file and the
number of bytes. -/
def readFileChunkService : Action Unit := do
  let pointer ← pop
  let path ← readText pointer.toAddress
  let destination ← pop
  let offset ← pop
  let size ← pop
  let contents ← readFile path
  note (.info "Reading file chunk"
    [("path", path), ("length", toString contents.length),
     ("chunk_offset", toString offset.toInt), ("chunk_size", toString size.toInt)])
  copyChunk path (chunkAt contents offset) size.toInt.toNat destination.toAddress
  push (fileLength contents)

/-! ## Display -/

def displayModeService : Action Unit := do
  let value ← pop
  match DisplayMode.ofWord? value with
  | some mode => modify fun c => { c with display := { c.display with mode } }
  | none =>
    note (.warn "Unknown display mode, falling back to the console"
      [("value", toString value.toInt)])
    modify fun c => { c with display := { c.display with mode := .console } }

/-- Pop a display dimension; a negative one counts as zero. -/
def popDimension : Action UInt32 := do
  let value ← pop
  if value < 0 then
    note (.warn "Negative display dimension" [("value", toString value.toInt)])
    pure 0
  else pure value.toAddress

def displayWidthService : Action Unit := do
  let width ← popDimension
  modify fun c => { c with display := { c.display with width } }

def displayHeightService : Action Unit := do
  let height ← popDimension
  modify fun c => { c with display := { c.display with height } }

/-! ## All services -/

def Syscall.perform : Syscall → Action Unit
  | exit => exitService
  | print => printService
  | assert => assertService
  | blit => modify fun c => { c with display := { c.display with blitRequested := true } }
  | initialized => do
    note (.info "Program initialized")
    modify fun c => { c with initialized := true }
  | toggleWidth => modifyCpu fun cpu => { cpu with width := cpu.width.toggle }
  | readFileChunk => readFileChunkService
  | displayMode => displayModeService
  | displayWidth => displayWidthService
  | displayHeight => displayHeightService

def Action.syscall (index : Word) : Action Unit := do
  let c ← get
  match c.syscalls.get? index with
  | some service => service.perform
  | none => raise (.unknownSyscall index)

end StackRisc
