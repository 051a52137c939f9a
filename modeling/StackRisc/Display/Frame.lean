import StackRisc.Memory.Block

/-!
# StackRisc.Display.Frame

Frames: a snapshot of the visible part of VRAM.  A frame is captured when
VRAM holds all of its pixels, shows a colour at each point in the two modes
that have one, and is written as a binary PPM image.
-/

namespace StackRisc

/-! ## Display parameters -/

/-- What the bytes of VRAM mean. -/
inductive DisplayMode where
  /-- Text only, nothing to draw. -/
  | console
  /-- One byte of luminance per pixel. -/
  | blackAndWhite
  /-- One palette index per pixel. -/
  | palette
  /-- Red, green and blue bytes per pixel. -/
  | bitmap
  deriving DecidableEq, Repr, Inhabited

namespace DisplayMode

def ofWord? (w : Word) : Option DisplayMode :=
  if w = 0 then some console
  else if w = 1 then some blackAndWhite
  else if w = 2 then some palette
  else if w = 3 then some bitmap
  else none

def bytesPerPixel : DisplayMode → Nat
  | bitmap => 3
  | console | blackAndWhite | palette => 1

def name : DisplayMode → String
  | console => "Console"
  | blackAndWhite => "BlackAndWhite"
  | palette => "Palette"
  | bitmap => "Bitmap"

end DisplayMode

/-- Display parameters set by a program. -/
structure DisplayState where
  mode : DisplayMode := .console
  width : UInt32 := 0
  height : UInt32 := 0
  blitRequested : Bool := false
  deriving DecidableEq, Repr, Inhabited

namespace DisplayState

def text (s : DisplayState) : String :=
  s.mode.name ++ " " ++ toString s.width ++ "x" ++ toString s.height ++ " "
    ++ toString s.blitRequested

end DisplayState

/-! ## Frames -/

/-- A snapshot of the visible part of VRAM. -/
structure Frame where
  mode : DisplayMode
  width : UInt32
  height : UInt32
  pixels : Array Byte
  deriving DecidableEq, Repr, Inhabited

/-- Why a frame could not be captured or drawn. -/
inductive FrameError where
  | vramTooSmall (needed available : Nat)
  | unsupported (mode : DisplayMode)
  deriving DecidableEq, Repr, Inhabited

def FrameError.message : FrameError → String
  | vramTooSmall needed available =>
    "VRAM too small for the frame buffer: " ++ toString needed ++ " bytes needed, "
      ++ toString available ++ " available"
  | unsupported mode => "display mode " ++ mode.name ++ " has no pixel representation"

namespace Frame

/-- Product that stays within 64 bits. -/
def saturatingMul (a b : Nat) : Nat := min (a * b) (UInt64.size - 1)

def neededBytes (s : DisplayState) : Nat :=
  saturatingMul (saturatingMul s.width.toNat s.height.toNat) s.mode.bytesPerPixel

/-- Copy the visible part of VRAM, if all of it is there. -/
def capture (s : DisplayState) (vram : Block) : Except FrameError Frame :=
  let needed := neededBytes s
  if needed ≤ vram.size then .ok ⟨s.mode, s.width, s.height, (vram.take needed).toArray⟩
  else .error (.vramTooSmall needed vram.size)

/-- Red, green and blue of a point, in the modes that have colours. -/
def rgb? (f : Frame) (x y : Nat) : Option (Byte × Byte × Byte) :=
  if f.width.toNat ≤ x ∨ f.height.toNat ≤ y then none
  else
    let index := (y * f.width.toNat + x) * f.mode.bytesPerPixel
    match f.mode with
    | .blackAndWhite => do
      let l ← f.pixels[index]?
      pure (l, l, l)
    | .bitmap => do
      let r ← f.pixels[index]?
      let g ← f.pixels[index + 1]?
      let b ← f.pixels[index + 2]?
      pure (r, g, b)
    | .console | .palette => none

/-! ## Images -/

/-- The header of a PPM image of this size. -/
def ppmHeader (f : Frame) : String :=
  "P6\n" ++ toString f.width ++ " " ++ toString f.height ++ "\n255\n"

/-- The colour bytes of the point with a number, counted row by row; black
where the frame has none. -/
def ppmPixel (f : Frame) (i : Nat) : List Byte :=
  match f.rgb? (i % f.width.toNat) (i / f.width.toNat) with
  | some (r, g, b) => [r, g, b]
  | none => [0, 0, 0]

/-- The frame as a binary PPM image: the header, then all points row by row. -/
def toPpm (f : Frame) : Except FrameError (List Byte) :=
  match f.mode with
  | .console | .palette => .error (.unsupported f.mode)
  | .blackAndWhite | .bitmap =>
    .ok (f.ppmHeader.toUTF8.data.toList
      ++ (List.range (f.width.toNat * f.height.toNat)).flatMap f.ppmPixel)

end Frame

end StackRisc
