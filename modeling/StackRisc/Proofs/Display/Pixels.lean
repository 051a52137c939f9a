import Mathlib.Data.List.Basic
import StackRisc.Display.Frame
import StackRisc.Proofs.Text.Digits

/-!
# StackRisc.Proofs.Display.Pixels

The points of a captured frame and of its image, as bytes of VRAM.  The size
check saturates, and indices are computed without a check; neither makes a
difference, because a VRAM that is smaller than the 64-bit range holds no frame
that leaves it:

* `Frame.neededBytes_le_iff` — the size check is that of the exact product;
* `Frame.span64?_eq` — where the bytes of a point are, computed in 64 bits;
* `flatMap_range_mul` — counting points row by row;
* `Frame.ppmHeader_bytes` — the header of an image, byte by byte;
* `Frame.capture_shows` — what a frame and its image hold.
-/

namespace StackRisc

/-- The first bytes of a block are those that it has there. -/
theorem Block.getElem?_take {b : Block} {n i : Nat} (h : n ≤ b.size) (hi : i < n) :
    (b.take n)[i]? = b.get? i := by
  rw [take, Nat.min_eq_left h, List.getElem?_map, List.getElem?_range hi, get?,
    if_pos (Nat.lt_of_lt_of_le hi h), Option.map_some]

/-! ## Rows and columns -/

/-- A point of a row is counted before the rows below. -/
theorem point_lt {w h x y : Nat} (hx : x < w) (hy : y < h) : y * w + x < w * h :=
  calc
    y * w + x < y * w + w := Nat.add_lt_add_left hx _
    _ = (y + 1) * w := (Nat.succ_mul y w).symm
    _ ≤ h * w := Nat.mul_le_mul_right w hy
    _ = w * h := Nat.mul_comm h w

/-- Going over all points is going over the rows, and over the points of each
row. -/
theorem flatMap_range_mul {α : Type} (w h : Nat) (f : Nat → List α) :
    (List.range (w * h)).flatMap f =
      (List.range h).flatMap fun y => (List.range w).flatMap fun x => f (y * w + x) := by
  induction h with
  | zero => rfl
  | succ h ih =>
      rw [Nat.mul_succ, List.range_add, List.flatMap_append, ih, List.range_succ,
        List.flatMap_append, List.flatMap_singleton, List.flatMap_map, Nat.mul_comm h w]

/-- The triples of a sequence are the sequence. -/
theorem flatMap_range_triples {α : Type} (n : Nat) (f : Nat → α) :
    ((List.range n).flatMap fun k => [f (3 * k), f (3 * k + 1), f (3 * k + 2)]) =
      (List.range (3 * n)).map f := by
  induction n with
  | zero => rfl
  | succ n ih =>
      rw [List.range_succ, List.flatMap_append, ih, Nat.mul_succ, List.range_add, List.map_append]
      rfl

theorem DisplayMode.bytesPerPixel_pos (mode : DisplayMode) : 0 < mode.bytesPerPixel := by
  cases mode <;> decide

/-! ## Bytes of a text -/

/-- The bytes of a text in ASCII are its code points. -/
theorem Text.toUTF8_of_ascii {text : String} (h : ∀ c ∈ text.toList, c.toNat < 128) :
    text.toUTF8.data.toList = text.toList.map fun c => UInt8.ofNat c.toNat := by
  have hchar : ∀ c ∈ text.toList, String.utf8EncodeChar c = [UInt8.ofNat c.toNat] := by
    intro c hc
    have hsize : c.utf8Size = 1 :=
      Char.utf8Size_eq_one_iff.mpr (UInt32.le_iff_toNat_le.mpr (Nat.le_of_lt_succ (h c hc)))
    rw [String.utf8EncodeChar_eq_singleton hsize]
    rfl
  have hbytes : text.toByteArray = text.toList.utf8Encode := by
    rw [← String.toByteArray_ofList, String.ofList_toList]
  rw [String.toUTF8_eq_toByteArray, hbytes, List.utf8Encode, List.toList_data_toByteArray,
    List.flatMap_congr hchar, List.map_eq_flatMap]

/-- A number in decimal, as the bytes of its digits. -/
def decimalBytes (n : Nat) : List Byte := (Nat.toDigits 10 n).map fun c => UInt8.ofNat c.toNat

namespace Frame

/-! ## Capturing -/

section

variable {s : DisplayState} {n : Nat}

/-- A product that saturates fits exactly if the product does. -/
theorem saturatingMul_le_iff {a b : Nat} (hn : n < UInt64.size - 1) :
    saturatingMul a b ≤ n ↔ a * b ≤ n := by
  rw [saturatingMul]
  omega

/-- A product that fits does not saturate. -/
theorem saturatingMul_eq {a b : Nat} (hn : n < UInt64.size - 1) (h : a * b ≤ n) :
    saturatingMul a b = a * b :=
  Nat.min_eq_left (by omega)

/-- The size check is that of the exact product. -/
theorem neededBytes_le_iff (hn : n < UInt64.size - 1) :
    neededBytes s ≤ n ↔ s.width.toNat * s.height.toNat * s.mode.bytesPerPixel ≤ n := by
  have hpos := s.mode.bytesPerPixel_pos
  have hquotient : n / s.mode.bytesPerPixel < UInt64.size - 1 :=
    Nat.lt_of_le_of_lt (Nat.div_le_self _ _) hn
  rw [neededBytes, saturatingMul_le_iff hn, ← Nat.le_div_iff_mul_le hpos,
    saturatingMul_le_iff hquotient, Nat.le_div_iff_mul_le hpos]

/-- The exact product has 66 bits. -/
example : neededBytes { mode := .bitmap, width := 4294967295, height := 4294967295 } =
    18446744073709551615 := rfl

/-- A frame that fits takes as many bytes as it has pixels. -/
theorem neededBytes_eq (hn : n < UInt64.size - 1)
    (h : s.width.toNat * s.height.toNat * s.mode.bytesPerPixel ≤ n) :
    neededBytes s = s.width.toNat * s.height.toNat * s.mode.bytesPerPixel := by
  have hpoints : s.width.toNat * s.height.toNat ≤ n :=
    Nat.le_trans (Nat.le_mul_of_pos_right _ s.mode.bytesPerPixel_pos) h
  rw [neededBytes, saturatingMul_eq hn hpoints, saturatingMul_eq hn h]

end

/-! ## Points -/

section

variable {f : Frame} {x y : Nat}

/-- A number, if it fits 64 bits. -/
def fit64? (n : Nat) : Option Nat := if n < UInt64.size then some n else none

/-- Where the bytes of a point start and end, each step computed in 64 bits. -/
def span64? (f : Frame) (x y : Nat) : Option (Nat × Nat) := do
  let row ← fit64? (y * f.width.toNat)
  let point ← fit64? (row + x)
  let first ← fit64? (point * f.mode.bytesPerPixel)
  let last ← fit64? (first + f.mode.bytesPerPixel)
  pure (first, last)

/-- The bytes of a point end where those of the frame do, or before. -/
theorem span_le (f : Frame) (hx : x < f.width.toNat) (hy : y < f.height.toNat) :
    (y * f.width.toNat + x) * f.mode.bytesPerPixel + f.mode.bytesPerPixel ≤
      f.width.toNat * f.height.toNat * f.mode.bytesPerPixel := by
  rw [← Nat.succ_mul]
  exact Nat.mul_le_mul_right _ (point_lt hx hy)

/-- No step leaves the range where all bytes of the frame are in it. -/
theorem span64?_eq (f : Frame)
    (hbytes : f.width.toNat * f.height.toNat * f.mode.bytesPerPixel < UInt64.size)
    (hx : x < f.width.toNat) (hy : y < f.height.toNat) :
    f.span64? x y = some ((y * f.width.toNat + x) * f.mode.bytesPerPixel,
      (y * f.width.toNat + x) * f.mode.bytesPerPixel + f.mode.bytesPerPixel) := by
  have hend := f.span_le hx hy
  have hbelow : y * f.width.toNat + x ≤ (y * f.width.toNat + x) * f.mode.bytesPerPixel :=
    Nat.le_mul_of_pos_right _ f.mode.bytesPerPixel_pos
  have hfit : ∀ n < UInt64.size, fit64? n = some n := fun n hn => if_pos hn
  have hrow := hfit (y * f.width.toNat) (by omega)
  have hpoint := hfit (y * f.width.toNat + x) (by omega)
  have hfirst := hfit ((y * f.width.toNat + x) * f.mode.bytesPerPixel) (by omega)
  have hlast := hfit _ (Nat.lt_of_le_of_lt hend hbytes)
  simp only [span64?, hrow, hpoint, hfirst, hlast, Option.bind_eq_bind, Option.bind_some]
  rfl

/-- There is no point outside the frame. -/
theorem rgb?_outside (h : f.width.toNat ≤ x ∨ f.height.toNat ≤ y) : f.rgb? x y = none := if_pos h

/-- A byte of luminance is a grey point. -/
theorem rgb?_blackAndWhite (hmode : f.mode = .blackAndWhite) (hx : x < f.width.toNat)
    (hy : y < f.height.toNat) :
    f.rgb? x y = f.pixels[y * f.width.toNat + x]?.map fun l => (l, l, l) := by
  rw [rgb?, if_neg (by omega), hmode]
  simp only [DisplayMode.bytesPerPixel, Nat.mul_one]
  cases f.pixels[y * f.width.toNat + x]? <;> rfl

/-- Three bytes are the colours of a point. -/
theorem rgb?_bitmap (hmode : f.mode = .bitmap) (hx : x < f.width.toNat)
    (hy : y < f.height.toNat) {r g b : Byte}
    (hr : f.pixels[3 * (y * f.width.toNat + x)]? = some r)
    (hg : f.pixels[3 * (y * f.width.toNat + x) + 1]? = some g)
    (hb : f.pixels[3 * (y * f.width.toNat + x) + 2]? = some b) :
    f.rgb? x y = some (r, g, b) := by
  rw [rgb?, if_neg (by omega), hmode]
  simp only [DisplayMode.bytesPerPixel, Nat.mul_comm _ 3, hr, hg, hb]
  rfl

/-! ## Images -/

/-- The three colour bytes of a point; none where it has no colour. -/
def triple (f : Frame) (x y : Nat) : List Byte :=
  match f.rgb? x y with
  | some (r, g, b) => [r, g, b]
  | none => []

theorem triple_of_rgb? {r g b : Byte} (h : f.rgb? x y = some (r, g, b)) :
    f.triple x y = [r, g, b] := by rw [triple, h]

/-- In an image, points with a colour are not black instead. -/
theorem ppmPixel_eq {r g b : Byte} (hx : x < f.width.toNat) (h : f.rgb? x y = some (r, g, b)) :
    f.ppmPixel (y * f.width.toNat + x) = f.triple x y := by
  have hcolumn : (y * f.width.toNat + x) % f.width.toNat = x := by
    rw [Nat.mul_comm, Nat.mul_add_mod, Nat.mod_eq_of_lt hx]
  have hrow : (y * f.width.toNat + x) / f.width.toNat = y := by
    rw [Nat.mul_comm, Nat.mul_add_div (Nat.zero_lt_of_lt hx), Nat.div_eq_of_lt hx, Nat.add_zero]
  rw [ppmPixel, hcolumn, hrow, triple_of_rgb? h, h]

/-- The header of an image: `P6`, the width and the height in decimal, and 255,
each behind the end of a line or a space. -/
theorem ppmHeader_bytes (f : Frame) :
    f.ppmHeader.toUTF8.data.toList =
      [80, 54, 10] ++ decimalBytes f.width.toNat ++ [32] ++ decimalBytes f.height.toNat ++
        [10, 50, 53, 53, 10] := by
  have hdecimal (n : UInt32) : (toString n).toList = Nat.toDigits 10 n.toNat := by
    show (toString n.toNat).toList = _
    simp [toString, Nat.repr]
  have htext : f.ppmHeader.toList =
      ['P', '6', '\n'] ++ Nat.toDigits 10 f.width.toNat ++ [' '] ++
        Nat.toDigits 10 f.height.toNat ++ ['\n', '2', '5', '5', '\n'] := by
    simp [ppmHeader, hdecimal]
  have hascii : ∀ c ∈ f.ppmHeader.toList, c.toNat < 128 := by
    rw [htext]
    simp only [List.forall_mem_append]
    have hdigits (n : Nat) : ∀ c ∈ Nat.toDigits 10 n, c.toNat < 128 :=
      Text.forall_mem_toDigits (by decide) (by decide) n
    exact ⟨⟨⟨⟨by simp, hdigits _⟩, by simp⟩, hdigits _⟩, by simp⟩
  rw [Text.toUTF8_of_ascii hascii, htext]
  simp only [List.map_append, decimalBytes]
  rfl

/-- The image of a frame whose points all have a colour. -/
theorem toPpm_eq (hmode : f.mode = .blackAndWhite ∨ f.mode = .bitmap)
    (hcolours : ∀ x < f.width.toNat, ∀ y < f.height.toNat, ∃ r g b,
      f.rgb? x y = some (r, g, b)) :
    f.toPpm = .ok ([80, 54, 10] ++ decimalBytes f.width.toNat ++ [32] ++
      decimalBytes f.height.toNat ++ [10, 50, 53, 53, 10] ++
      (List.range f.height.toNat).flatMap fun y =>
        (List.range f.width.toNat).flatMap fun x => f.triple x y) := by
  have hpoints : (List.range (f.width.toNat * f.height.toNat)).flatMap f.ppmPixel =
      (List.range f.height.toNat).flatMap fun y =>
        (List.range f.width.toNat).flatMap fun x => f.triple x y := by
    rw [flatMap_range_mul]
    refine List.flatMap_congr fun y hy => List.flatMap_congr fun x hx => ?_
    rw [List.mem_range] at hx hy
    obtain ⟨r, g, b, hrgb⟩ := hcolours x hx y hy
    exact ppmPixel_eq hx hrgb
  rw [← hpoints, ← ppmHeader_bytes]
  rcases hmode with hmode | hmode <;> rw [toPpm, hmode]

end

/-! ## Captured frames -/

/-- The frame holds the visible bytes of VRAM. -/
structure Holds (f : Frame) (vram : Block) : Prop where
  fits : f.width.toNat * f.height.toNat * f.mode.bytesPerPixel ≤ vram.size
  pixels : f.pixels = (vram.take (f.width.toNat * f.height.toNat * f.mode.bytesPerPixel)).toArray

namespace Holds

variable {f : Frame} {vram : Block} {x y : Nat} (h : f.Holds vram)

include h

/-- The pixels are the visible bytes. -/
theorem getElem?_pixels {i : Nat}
    (hi : i < f.width.toNat * f.height.toNat * f.mode.bytesPerPixel) :
    f.pixels[i]? = some (vram.cells.get i) := by
  rw [h.pixels, List.getElem?_toArray, Block.getElem?_take h.fits hi]
  exact if_pos (Nat.lt_of_lt_of_le hi h.fits)

theorem get?_vram {i : Nat} (hi : i < f.width.toNat * f.height.toNat * f.mode.bytesPerPixel) :
    vram.get? i = some (vram.cells.get i) := if_pos (Nat.lt_of_lt_of_le hi h.fits)

section

variable (hx : x < f.width.toNat) (hy : y < f.height.toNat)

include hx hy

/-- A grey point is one byte of VRAM. -/
theorem rgb?_blackAndWhite (hmode : f.mode = .blackAndWhite) :
    ∃ l, vram.get? (y * f.width.toNat + x) = some l ∧ f.rgb? x y = some (l, l, l) := by
  have hinside : y * f.width.toNat + x <
      f.width.toNat * f.height.toNat * f.mode.bytesPerPixel := by
    rw [hmode, DisplayMode.bytesPerPixel, Nat.mul_one]
    exact point_lt hx hy
  refine ⟨_, h.get?_vram hinside, ?_⟩
  rw [Frame.rgb?_blackAndWhite hmode hx hy, h.getElem?_pixels hinside, Option.map_some]

/-- A coloured point is three bytes of VRAM. -/
theorem rgb?_bitmap (hmode : f.mode = .bitmap) :
    (∀ i < 3, vram.get? (3 * (y * f.width.toNat + x) + i) =
      some (vram.cells.get (3 * (y * f.width.toNat + x) + i))) ∧
    f.rgb? x y = some (vram.cells.get (3 * (y * f.width.toNat + x)),
      vram.cells.get (3 * (y * f.width.toNat + x) + 1),
      vram.cells.get (3 * (y * f.width.toNat + x) + 2)) := by
  have hend := f.span_le hx hy
  have hthree : f.mode.bytesPerPixel = 3 := by rw [hmode]; rfl
  have hinside : ∀ i < 3, 3 * (y * f.width.toNat + x) + i <
      f.width.toNat * f.height.toNat * f.mode.bytesPerPixel := by
    rw [hthree] at hend ⊢
    omega
  exact ⟨fun i hi => h.get?_vram (hinside i hi), Frame.rgb?_bitmap hmode hx hy
    (h.getElem?_pixels (hinside 0 (by decide))) (h.getElem?_pixels (hinside 1 (by decide)))
    (h.getElem?_pixels (hinside 2 (by decide)))⟩

end

/-- Every point of the modes that have colours has one. -/
theorem exists_rgb? (hmode : f.mode = .blackAndWhite ∨ f.mode = .bitmap) :
    ∀ x < f.width.toNat, ∀ y < f.height.toNat, ∃ r g b, f.rgb? x y = some (r, g, b) := by
  intro x hx y hy
  rcases hmode with hmode | hmode
  · obtain ⟨l, -, hrgb⟩ := h.rgb?_blackAndWhite hx hy hmode
    exact ⟨l, l, l, hrgb⟩
  · exact ⟨_, _, _, (h.rgb?_bitmap hx hy hmode).2⟩

/-- The points of a frame with three bytes for each of them are these bytes. -/
theorem flatMap_triple_bitmap (hmode : f.mode = .bitmap) :
    ((List.range f.height.toNat).flatMap fun y =>
        (List.range f.width.toNat).flatMap fun x => f.triple x y) =
      vram.take (3 * (f.width.toNat * f.height.toNat)) := by
  have hfits : 3 * (f.width.toNat * f.height.toNat) ≤ vram.size := by
    have hfits := h.fits
    rw [hmode, DisplayMode.bytesPerPixel] at hfits
    omega
  rw [Block.take, Nat.min_eq_left hfits, ← flatMap_range_triples, flatMap_range_mul]
  refine List.flatMap_congr fun y hy => List.flatMap_congr fun x hx => ?_
  rw [List.mem_range] at hx hy
  exact triple_of_rgb? (h.rgb?_bitmap hx hy hmode).2

end Holds

section

variable {s : DisplayState} {vram : Block} {f : Frame}

/-- A frame is captured if its bytes are there, and is made of them. -/
theorem capture_eq_ok_iff :
    capture s vram = .ok f ↔ neededBytes s ≤ vram.size ∧
      (⟨s.mode, s.width, s.height, (vram.take (neededBytes s)).toArray⟩ : Frame) = f := by
  unfold capture
  by_cases h : neededBytes s ≤ vram.size <;> simp [h]

/-- A captured frame holds the visible bytes. -/
theorem holds_of_capture (hsize : vram.size < UInt64.size - 1) (h : capture s vram = .ok f) :
    (f.mode = s.mode ∧ f.width = s.width ∧ f.height = s.height) ∧ f.Holds vram := by
  obtain ⟨hneeded, rfl⟩ := capture_eq_ok_iff.mp h
  have hfits := (neededBytes_le_iff hsize).mp hneeded
  exact ⟨⟨rfl, rfl, rfl⟩, hfits, by rw [neededBytes_eq hsize hfits]⟩

end

/-- A frame is captured exactly if VRAM has all of its bytes.  Each of its
points is then found without leaving 64 bits: the grey of one byte, or three
bytes of VRAM, counted row by row; no point is outside the frame.  Its image is
a header, with `P6`, the width, the height and 255 in decimal, and the colours
of its points, row by row, and so the bytes themselves where each point has
three. -/
theorem capture_shows (s : DisplayState) (vram : Block) (hsize : vram.size < UInt64.size - 1) :
    ((∃ f, capture s vram = .ok f) ↔
      s.width.toNat * s.height.toNat * s.mode.bytesPerPixel ≤ vram.size) ∧
    ∀ f, capture s vram = .ok f →
      let header := [80, 54, 10] ++ decimalBytes s.width.toNat ++ [32] ++
        decimalBytes s.height.toNat ++ [10, 50, 53, 53, 10]
      (∀ x y, s.width.toNat ≤ x ∨ s.height.toNat ≤ y → f.rgb? x y = none) ∧
      (∀ x < s.width.toNat, ∀ y < s.height.toNat,
        f.span64? x y = some ((y * s.width.toNat + x) * s.mode.bytesPerPixel,
          (y * s.width.toNat + x) * s.mode.bytesPerPixel + s.mode.bytesPerPixel) ∧
        (s.mode = .blackAndWhite → ∃ l, vram.get? (y * s.width.toNat + x) = some l ∧
          f.rgb? x y = some (l, l, l)) ∧
        (s.mode = .bitmap → ∃ r g b, vram.get? (3 * (y * s.width.toNat + x)) = some r ∧
          vram.get? (3 * (y * s.width.toNat + x) + 1) = some g ∧
          vram.get? (3 * (y * s.width.toNat + x) + 2) = some b ∧
          f.rgb? x y = some (r, g, b))) ∧
      (s.mode = .blackAndWhite ∨ s.mode = .bitmap →
        f.toPpm = .ok (header ++
          (List.range s.height.toNat).flatMap fun y =>
            (List.range s.width.toNat).flatMap fun x => f.triple x y)) ∧
      (s.mode = .bitmap → f.toPpm = .ok (header ++
        vram.take (3 * (s.width.toNat * s.height.toNat)))) := by
  refine ⟨⟨fun ⟨f, h⟩ => (neededBytes_le_iff hsize).mp (capture_eq_ok_iff.mp h).1,
    fun hfits => ⟨_, capture_eq_ok_iff.mpr ⟨(neededBytes_le_iff hsize).mpr hfits, rfl⟩⟩⟩,
    fun f h => ?_⟩
  obtain ⟨⟨hmode, hwidth, hheight⟩, hholds⟩ := holds_of_capture hsize h
  dsimp only
  rw [← hmode, ← hwidth, ← hheight]
  refine ⟨fun x y => rgb?_outside, fun x hx y hy => ⟨f.span64?_eq ?_ hx hy,
    hholds.rgb?_blackAndWhite hx hy, fun hbitmap => ?_⟩,
    fun hcolours => toPpm_eq hcolours (hholds.exists_rgb? hcolours), fun hbitmap => ?_⟩
  · have hfits := hholds.fits
    omega
  · obtain ⟨hget, hrgb⟩ := hholds.rgb?_bitmap hx hy hbitmap
    exact ⟨_, _, _, hget 0 (by decide), hget 1 (by decide), hget 2 (by decide), hrgb⟩
  · rw [toPpm_eq (.inr hbitmap) (hholds.exists_rgb? (.inr hbitmap)),
      hholds.flatMap_triple_bitmap hbitmap]

/-- A picture of two coloured points in a VRAM with some bytes to spare. -/
theorem capture_shows_two_points :
    (Block.ofList [1, 2, 3, 4, 5, 6, 7, 8]).size < UInt64.size - 1 ∧
    ∃ f, capture { mode := .bitmap, width := 2, height := 1 }
        (Block.ofList [1, 2, 3, 4, 5, 6, 7, 8]) = .ok f ∧
      f.span64? 1 0 = some (3, 6) ∧ f.rgb? 1 0 = some (4, 5, 6) ∧ f.rgb? 2 0 = none ∧
      f.toPpm = .ok [80, 54, 10, 50, 32, 49, 10, 50, 53, 53, 10, 1, 2, 3, 4, 5, 6] := by
  have hsize : (Block.ofList [1, 2, 3, 4, 5, 6, 7, 8]).size < UInt64.size - 1 := by decide
  obtain ⟨hfits, hshown⟩ := capture_shows { mode := .bitmap, width := 2, height := 1 } _ hsize
  obtain ⟨f, hf⟩ := hfits.mpr (by decide)
  obtain ⟨houtside, hpoints, -, himage⟩ := hshown f hf
  obtain ⟨hspan, -, hcolours⟩ := hpoints 1 (by decide) 0 (by decide)
  obtain ⟨r, g, b, hr, hg, hb, hrgb⟩ := hcolours rfl
  refine ⟨hsize, f, hf, hspan, ?_, houtside 2 0 (.inl (by decide)), himage rfl⟩
  obtain rfl : 4 = r := Option.some.inj hr
  obtain rfl : 5 = g := Option.some.inj hg
  obtain rfl : 6 = b := Option.some.inj hb
  exact hrgb

end Frame

end StackRisc
