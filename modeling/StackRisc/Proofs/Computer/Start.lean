import StackRisc.Proofs.Computer.Execution
import StackRisc.Proofs.Memory.Rom

/-!
# StackRisc.Proofs.Computer.Start

Where a loaded program starts.  The program counter is set to the program
origin, which is the first address of the ROM as long as the ROM has an
address at all: behind regions that fill the address space the origin is that
of the default layout, and lies in one of them
(`Computer.starts_in_rom_iff`).
-/

namespace StackRisc

namespace Memory

variable {layout : Layout} {image : List Byte} {address : Address} {l : Location}

/-- The ROM starts behind all other regions. -/
theorem start_rom (layout : Layout) (image : List Byte) :
    (ofLayout layout image).start 4 = layout.total := by
  simp [start, ofLayout, Layout.total, Region.ram, Region.vram, Region.systemPage, Region.stack,
    Nat.add_assoc]

/-- It is the fifth region. -/
theorem index_of_rom {i : Nat} {r : Region} (hr : (ofLayout layout image).regions[i]? = some r)
    (hkind : r.kind = .rom) : i = 4 := by
  match i with
  | 0 | 1 | 2 | 3 =>
      rw [← Option.some.inj hr] at hkind
      contradiction
  | 4 => rfl
  | i + 5 => contradiction

/-- The ROM has only the addresses behind the other regions. -/
theorem total_le_of_owns_rom (h : (ofLayout layout image).Owns address l)
    (hkind : l.region.kind = .rom) : layout.total ≤ address.toNat := by
  have hindex := index_of_rom h.region hkind
  rw [h.position, hindex, start_rom]
  exact Nat.le_add_right _ _

end Memory

namespace Computer

variable {config : Config} {image : List Byte}

/-- A loaded program starts at the first byte of the ROM exactly if the
regions in front of it leave it an address; then the first byte fetched is
the first one of the image. -/
theorem starts_in_rom_iff (config : Config) (hsize : image.length ≤ programSize) :
    ∃ c, load config image = .ok c ∧
      ((∃ l, c.memory.locate c.cpu.registers.pc .read = .ok l ∧
          l.region.kind = .rom ∧ l.offset = 0) ↔
        config.layout.total < UInt32.size) ∧
      (config.layout.total < UInt32.size → (padImage image)[0]? = some c.code) := by
  have hlength := length_padImage hsize
  have hpos : 0 < (padImage image).length := by rw [hlength]; decide
  have hbelow : (padImage image).length < UInt32.size := by rw [hlength]; decide
  have hrom : 0 < (Region.rom (padImage image)).size := Nat.lt_min.mpr ⟨hpos, by decide⟩
  have hfirst := List.getElem?_eq_getElem hpos
  refine ⟨ofImage config image, load_eq hsize, ⟨?_, fun h => ?_⟩, fun h => ?_⟩
  · -- An address of the ROM is at least `total`, and every address is below `2 ^ 32`.
    rintro ⟨l, hl, hkind, -⟩
    have howns := (Memory.locate_eq_ok_iff.mp hl).1
    exact Nat.lt_of_le_of_lt (Memory.total_le_of_owns_rom howns hkind) (UInt32.toNat_lt_size _)
  · exact ⟨⟨4, .rom (padImage image), 0⟩, Memory.locate_rom (Memory.toNat_origin h) hrom, rfl, rfl⟩
  · rw [code, hfirst]
    exact congrArg (some ·.value) (Memory.read8_rom (Memory.toNat_origin h) hfirst hbelow).symm

/-- A program of one instruction starts at the ROM, with its byte. -/
theorem starts_in_rom_hlt :
    [(0x0b : Byte)].length ≤ programSize ∧
    ∃ c, load { files := .empty } [0x0b] = .ok c ∧
      (∃ l, c.memory.locate c.cpu.registers.pc .read = .ok l ∧
        l.region.kind = .rom ∧ l.offset = 0) ∧
      c.code = 0x0b := by
  have hsize : [(0x0b : Byte)].length ≤ programSize := by decide
  have hbelow : ({} : Layout).total < UInt32.size := by decide
  obtain ⟨c, hload, hstart, hcode⟩ := starts_in_rom_iff { files := .empty } hsize
  exact ⟨hsize, c, hload, hstart.mpr hbelow, (Option.some.inj (hcode hbelow)).symm⟩

/-- A machine whose system page is as large as the address space. -/
def withWholePage : Config where
  layout := ⟨64, 16, 4294967295, 16⟩
  files := .empty

/-- A program behind such a page does not start: the program counter is in the
page, and what is fetched there is not its first instruction, `HLT`. -/
theorem starts_in_whole_page :
    ∃ c, load withWholePage [0x0b] = .ok c ∧
      (¬ ∃ l, c.memory.locate c.cpu.registers.pc .read = .ok l ∧
        l.region.kind = .rom ∧ l.offset = 0) ∧
      (∃ l, c.memory.locate c.cpu.registers.pc .read = .ok l ∧
        l.region.kind = .systemPage ∧ l.offset = 67108780) ∧
      c.code = 0 ∧ c.step.computer.running = true := by
  refine ⟨ofImage withWholePage [0x0b], rfl, ?_, ⟨_, rfl, rfl, rfl⟩, rfl, rfl⟩
  rintro ⟨l, hl, hkind, -⟩
  rw [← Except.ok.inj hl] at hkind
  contradiction

end Computer

end StackRisc
