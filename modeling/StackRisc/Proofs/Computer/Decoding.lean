import StackRisc.Proofs.Coverage
import StackRisc.Proofs.Memory.Owner
import StackRisc.Proofs.Memory.Rom

/-!
# StackRisc.Proofs.Computer.Decoding

Two readers of one image: the listing, which goes over its bytes and fills up
an operand that is cut off, and the machine, which reads bytes and words from
its address map.  They differ only where the end of the ROM cuts an operand
in two:

* `Computer.instructionAt_eq_decoded` — what the machine decodes at an offset;
* `Computer.instructionAt_of_listed` — the machine against the listing.
-/

namespace StackRisc

/-! ## Decoding in the ROM -/

namespace Memory

variable {layout : Layout} {image : List Byte} {cpu : Cpu} {address : Address} {n : Nat}

/-- A byte in the ROM is the one of its image. -/
theorem read8_rom_getD (haddress : address.toNat = layout.total + n) (hn : n < image.length)
    (hfits : image.length < UInt32.size) :
    (ofLayout layout image).read8 cpu address = .quiet (image.getD n 0) := by
  refine read8_rom haddress ?_ hfits
  rw [List.getD_eq_getElem?_getD, List.getElem?_eq_getElem hn, Option.getD_some]

/-- A word in the ROM is the operand that its bytes are listed as. -/
theorem read32_rom_operand (haddress : address.toNat = layout.total + n)
    (hinside : n + 4 ≤ image.length) (hfits : image.length < UInt32.size) :
    (ofLayout layout image).read32 cpu address = .quiet (.ok (Listing.operand (image.drop n))) := by
  have hword : 4 ≤ (image.drop n).length := by
    rw [List.length_drop]
    omega
  have hsplit : image =
      image.take n ++ (Listing.operand (image.drop n)).bytes ++ image.drop (n + 4) := by
    have hbehind := Listing.bytes_operand_append hword
    rw [List.drop_drop] at hbehind
    rw [List.append_assoc, hbehind, List.take_append_drop]
  have hfront : (image.take n).length = n := List.length_take_of_le (by omega)
  exact read32_rom (haddress.trans (by rw [hfront])) hsplit hfits

/-- A word that runs over the end of the ROM is refused. -/
theorem read32_rom_cut (haddress : address.toNat = layout.total + n) (hn : n < image.length)
    (hcut : image.length < n + 4) (hfits : image.length < UInt32.size) :
    (ofLayout layout image).read32 cpu address =
      .quiet (.error (.spanOutOfBounds .rom address)) := by
  have hsize : (Region.rom image).size = image.length := by
    show min image.length (UInt32.size - 1) = image.length
    omega
  have hspan : spanFits ⟨4, .rom image, n⟩ = false := by
    rw [spanFits, decide_eq_false_iff_not]
    show ¬ n + 4 ≤ (Region.rom image).size
    omega
  rw [read32, locate_rom haddress (by omega)]
  simp only [hspan, Bool.false_eq_true, if_false]
  rfl

/-- A word behind the ROM is zero. -/
theorem read32_past_rom (haddress : layout.total + image.length ≤ address.toNat) :
    ((ofLayout layout image).read32 cpu address).value = .ok 0 := by
  have hsum : ((ofLayout layout image).regions.map Region.size).sum ≤ address.toNat := by
    have hrom : (Region.rom image).size ≤ image.length := Nat.min_le_left _ _
    simp only [ofLayout, List.map_cons, List.map_nil, List.sum_cons, List.sum_nil, Region.ram,
      Region.vram, Region.systemPage, Region.stack]
    rw [Layout.total] at haddress
    omega
  rw [read32, locate, locateFrom_of_le (by rw [Nat.zero_add]; exact hsum)]
  rfl

end Memory

namespace Computer

/-- What the machine decodes at an offset of a ROM: what is listed there,
unless the end of the ROM cuts an operand in two. -/
def decoded (rom : List Byte) (offset : Nat) (address : Address) : Except Fault Instruction :=
  match Listing.contentAt rom offset with
  | .error code => .error (.exception (.invalidInstruction code address))
  | .ok i =>
    if i.opcode.hasOperand ∧ offset + 1 < rom.length ∧ rom.length < offset + 5 then
      .error (.exception (.memory (.spanOutOfBounds .rom (address + 1))))
    else .ok i

/-- The operand of an instruction is one address further. -/
theorem toNat_next {layout : Layout} {rom : List Byte} {offset : Nat} {address : Address}
    (hfits : layout.total + rom.length < UInt32.size) (hoffset : offset < rom.length)
    (haddress : address.toNat = layout.total + offset) :
    (address + 1).toNat = layout.total + (offset + 1) := by
  have hroom : address.toNat + 1 < UInt32.size := by omega
  rw [← Nat.add_assoc, ← haddress]
  exact toNat_add_ofNat hroom

/-- The machine decodes every offset of its ROM. -/
theorem instructionAt_eq_decoded {c : Computer} {layout : Layout} {rom : List Byte}
    {offset : Nat} {address : Address} (hmemory : c.memory = .ofLayout layout rom)
    (hfits : layout.total + rom.length < UInt32.size) (hoffset : offset < rom.length)
    (haddress : address.toNat = layout.total + offset) :
    (c.instructionAt address).value = decoded rom offset address := by
  have hbelow : rom.length < UInt32.size := by omega
  have hnext := toNat_next hfits hoffset haddress
  have hcode : c.memory.read8 c.cpu address = .quiet (rom.getD offset 0) := by
    rw [hmemory]
    exact Memory.read8_rom_getD haddress hoffset hbelow
  rw [instructionAt, hcode, decoded, Listing.contentAt]
  simp only [Logged.quiet]
  cases hop : Opcode.ofByte? (rom.getD offset 0) with
  | none => rfl
  | some op =>
      by_cases hoperand : op.hasOperand
      · simp only [hoperand, if_true, Instruction.opcode_ofOpcode, true_and, hmemory]
        rcases Nat.lt_or_ge (offset + 4) rom.length with hinside | hcut
        · -- The whole operand is in the ROM.
          rw [Memory.read32_rom_operand hnext hinside hbelow, if_neg (by omega)]
          rfl
        · rcases Nat.lt_or_ge (offset + 1) rom.length with hpart | hend
          · -- Some of the operand is in the ROM.
            rw [Memory.read32_rom_cut hnext hpart (by omega) hbelow, if_pos ⟨hpart, by omega⟩]
            rfl
          · -- The operation code is the last byte of the ROM.
            rw [Memory.read32_past_rom (by omega), if_neg (by omega), List.drop_eq_nil_of_le hend]
            rfl
      · simp only [hoperand, Bool.false_eq_true, if_false, Instruction.opcode_ofOpcode, false_and]

/-- Away from the end of the ROM the machine decodes what is listed. -/
theorem toOption_decoded {rom : List Byte} {offset : Nat} (hinside : offset + 4 < rom.length)
    (address : Address) :
    (decoded rom offset address).toOption = (Listing.contentAt rom offset).toOption := by
  have hwhole (p : Prop) : ¬ (p ∧ offset + 1 < rom.length ∧ rom.length < offset + 5) := by
    rintro ⟨-, -, hcut⟩
    omega
  rw [decoded]
  cases Listing.contentAt rom offset with
  | error code => rfl
  | ok i =>
      simp only [if_neg (hwhole _)]
      rfl

/-- Nothing is told while an instruction is decoded whose bytes are all in the
ROM. -/
theorem log_instructionAt {c : Computer} {layout : Layout} {rom : List Byte} {offset : Nat}
    {address : Address} (hmemory : c.memory = .ofLayout layout rom)
    (hfits : layout.total + rom.length < UInt32.size) (hinside : offset + 4 < rom.length)
    (haddress : address.toNat = layout.total + offset) :
    (c.instructionAt address).log = [] := by
  have hbelow : rom.length < UInt32.size := by omega
  have hnext := toNat_next hfits (by omega) haddress
  rw [instructionAt, hmemory, Memory.read8_rom_getD haddress (by omega) hbelow,
    Memory.read32_rom_operand hnext hinside hbelow]
  simp only [Logged.quiet]
  cases Opcode.ofByte? (rom.getD offset 0) with
  | none => rfl
  | some op => cases hop : op.hasOperand <;> simp only [hop] <;> rfl

/-! ## Loaded images -/

variable {config : Config} {image : List Byte}

/-- Offsets in a program do not wrap, if the layout leaves room. -/
theorem toNat_origin_add {n : Nat} (hlayout : config.layout.total + programSize < UInt32.size)
    (hn : n < programSize) :
    ((ofImage config image).memory.origin + UInt32.ofNat n).toNat = config.layout.total + n := by
  have horigin : (ofImage config image).memory.origin.toNat = config.layout.total :=
    Memory.toNat_origin (by omega)
  have hoffset : (UInt32.ofNat n).toNat = n := UInt32.toNat_ofNat_of_lt' (by omega)
  rw [UInt32.toNat_add, horigin, hoffset]
  exact Nat.mod_eq_of_lt (by show _ < UInt32.size; omega)

/-- Where an image is listed, the loaded machine decodes the same instruction,
or refuses the same byte, at the address of that offset.  The entry stands
for the bytes of the image there, filled up with zeros; at the offsets 4092,
4093 and 4094, where an operand has its first bytes in the ROM and its last
ones behind it, the machine refuses the access instead. -/
theorem instructionAt_of_listed (hfits : image.length ≤ programSize)
    (hlayout : config.layout.ram.toNat + config.layout.vram.toNat +
      config.layout.systemPage.toNat + config.layout.stack.toNat + programSize < UInt32.size) :
    ∃ c, load config image = .ok c ∧ ∀ e ∈ Listing.ofImage image,
      e.bytes = (List.range e.size).map (fun k => image.getD (e.offset + k) 0) ∧
      (c.instructionAt (c.memory.origin + UInt32.ofNat e.offset)).value =
        match e.content with
        | .error code =>
          .error (.exception
            (.invalidInstruction code (c.memory.origin + UInt32.ofNat e.offset)))
        | .ok i =>
          if i.opcode.hasOperand ∧ 4092 ≤ e.offset ∧ e.offset ≤ 4094 then
            .error (.exception
              (.memory (.spanOutOfBounds .rom (c.memory.origin + UInt32.ofNat e.offset + 1))))
          else .ok i := by
  refine ⟨_, load_eq hfits, fun e he => ⟨Listing.bytes_of_mem_ofImage he, ?_⟩⟩
  obtain ⟨hoffset, hcontent⟩ := Listing.content_of_mem_ofImage he
  have hinside : e.offset < programSize := by omega
  have hcut : (e.offset + 1 < (padImage image).length ∧ (padImage image).length < e.offset + 5) ↔
      4092 ≤ e.offset ∧ e.offset ≤ 4094 := by
    rw [length_padImage hfits, programSize]
    omega
  rw [instructionAt_eq_decoded rfl (by rw [length_padImage hfits]; exact hlayout)
    (by rw [length_padImage hfits]; exact hinside) (toNat_origin_add hlayout hinside), decoded,
    hcontent, padImage, Listing.contentAt_append_replicate, ← padImage]
  simp only [hcut]

/-- An `LDI` and a byte that is no operation code, read both ways. -/
theorem instructionAt_of_listed_ldi :
    ∃ c, load { files := .empty } [0x01, 7, 0, 0, 0, 0xff] = .ok c ∧
      Listing.ofImage [0x01, 7, 0, 0, 0, 0xff] = [⟨0, .ok (.ldi 7)⟩, ⟨5, .error 0xff⟩] ∧
      (c.instructionAt c.memory.origin).value = .ok (.ldi 7) ∧
      (c.instructionAt (c.memory.origin + 5)).value =
        .error (.exception (.invalidInstruction 0xff (c.memory.origin + 5))) := by
  obtain ⟨c, hload, hlisted⟩ :=
    @instructionAt_of_listed { files := .empty } [0x01, 7, 0, 0, 0, 0xff] (by decide) (by decide)
  have hlisting : Listing.ofImage [0x01, 7, 0, 0, 0, 0xff] =
      [⟨0, .ok (.ldi 7)⟩, ⟨5, .error 0xff⟩] := rfl
  have hldi := (hlisted ⟨0, .ok (.ldi 7)⟩ (by rw [hlisting]; exact List.mem_cons_self)).2
  have hinvalid := (hlisted ⟨5, .error 0xff⟩
    (by rw [hlisting]; exact List.mem_cons_of_mem _ List.mem_cons_self)).2
  refine ⟨c, hload, hlisting, ?_, hinvalid⟩
  exact (congrArg (fun a => (c.instructionAt a).value) (UInt32.add_zero _).symm).trans hldi

end Computer

end StackRisc
