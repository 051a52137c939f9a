import StackRisc.Proofs.Computer.Stability
import StackRisc.Proofs.Memory.ReadBack

/-!
# StackRisc.Proofs.Computer.AddressMap

What no program can change: the address map it runs in, and itself.

* `Computer.Reaches.sameMap` — a machine that was reached differs from the
  one it was reached from at most in the bytes of RAM and VRAM;
* `Computer.Reaches.backed` — from a loaded image on, every region of RAM, VRAM
  and ROM holds a byte for each of its addresses;
* `Computer.program_immutable` — from a loaded image on, kinds, sizes and
  permissions of the regions, the program origin and the bytes of the ROM stay
  what they are.
-/

namespace StackRisc.Computer

variable {c d : Computer} {config : Config} {image : List Byte}

/-- Of the address map a run changes at most the bytes of RAM and VRAM. -/
theorem Reaches.sameMap (h : c.Reaches d) : c.memory.SameMap d.memory :=
  h.stable Memory.stable_sameMap

/-- A loaded image has the bytes of its regions, and no run loses one. -/
theorem Reaches.backed (h : (ofImage config image).Reaches d) : d.memory.Backed :=
  h.sameMap.backed (Memory.backed_ofLayout config.layout (padImage image))

/-- The first ROM of a loaded image holds that image. -/
theorem region?_rom_ofImage (config : Config) (image : List Byte) :
    (ofImage config image).memory.region? .rom = some (.rom (padImage image)) := rfl

/-- However a loaded image runs, its address map and its ROM stay as they
are. -/
theorem program_immutable (config : Config) (hsize : image.length ≤ programSize) :
    ∃ c, load config image = .ok c ∧ ∀ d, c.Reaches d →
      d.memory.regions.map Region.shape = c.memory.regions.map Region.shape ∧
      d.memory.origin = c.memory.origin ∧
      ∃ rom, d.memory.region? .rom = some rom ∧ rom.block.toList = padImage image := by
  refine ⟨ofImage config image, load_eq hsize, fun d hd => ?_⟩
  have hmap := hd.sameMap
  have hrom : d.memory.region? .rom = some (.rom (padImage image)) :=
    (hmap.region?_eq (by decide) (by decide)).trans (region?_rom_ofImage config image)
  exact ⟨hmap.shapes_eq, hmap.origin_eq, .rom (padImage image), hrom,
    Block.toList_ofList (padImage image)⟩

/-- A program of one instruction stays as it was loaded, whatever its machine
comes to. -/
theorem program_immutable_hlt :
    [(0x0b : Byte)].length ≤ programSize ∧
    ∃ c, load { files := .empty } [0x0b] = .ok c ∧ ∀ d, c.Reaches d →
      d.memory.regions.map Region.shape = c.memory.regions.map Region.shape ∧
      d.memory.origin = c.memory.origin ∧
      ∃ rom, d.memory.region? .rom = some rom ∧ rom.block.toList = padImage [0x0b] := by
  have hsize : [(0x0b : Byte)].length ≤ programSize := by decide
  exact ⟨hsize, program_immutable { files := .empty } hsize⟩

end StackRisc.Computer
