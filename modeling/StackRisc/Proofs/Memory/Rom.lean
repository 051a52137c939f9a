import StackRisc.Computer.Step
import StackRisc.Proofs.Encoding

/-!
# StackRisc.Proofs.Memory.Rom

The program ROM behind the four regions of a layout, and what is read and
decoded there:

* `Block.get?_ofList` — a block made of bytes holds these bytes;
* `Memory.locate_rom` — the addresses from the origin on are in the ROM;
* `Computer.instructionAt_ofImage` — an instruction whose encoding is somewhere
  in an image is decoded there once the image is loaded.
-/

namespace StackRisc

/-! ## Blocks -/

namespace Block

/-- Bytes written one after the other are found one after the other. -/
theorem get?_setAll (b : Block) (i j : Nat) (vs : List Byte) (h : i + vs.length ≤ b.size) :
    (b.setAll i vs).get? j =
      if i ≤ j ∧ j < i + vs.length then vs[j - i]? else b.get? j := by
  induction vs generalizing b i with
  | nil =>
      rw [if_neg (by simp)]
      rfl
  | cons v vs ih =>
      rw [List.length_cons] at h
      rw [setAll, ih (b.set i v) (i + 1) (by rw [size_set]; omega), get?_set, List.length_cons]
      by_cases heq : i = j
      · have hlt : j < b.size := by omega
        rw [if_neg (by omega), if_pos ⟨heq, hlt⟩, if_pos (by omega), heq, Nat.sub_self]
        rfl
      · by_cases hin : i + 1 ≤ j ∧ j < i + 1 + vs.length
        · have hsub : j - i = (j - (i + 1)) + 1 := by omega
          rw [if_pos hin, if_pos (by omega), hsub, List.getElem?_cons_succ]
        · rw [if_neg hin, if_neg (by omega), if_neg (by omega)]

/-- A block made of bytes holds these bytes. -/
theorem get?_ofList (bytes : List Byte) (j : Nat) : (ofList bytes).get? j = bytes[j]? := by
  have hsize : (zeros bytes.length).size = bytes.length := rfl
  rw [ofList, get?_setAll _ _ _ _ (by rw [hsize]; omega), Nat.sub_zero]
  by_cases h : j < bytes.length
  · rw [if_pos (by omega)]
  · rw [if_neg (by omega), get?, hsize, if_neg h, List.getElem?_eq_none (Nat.not_lt.mp h)]

/-- A block lists its bytes in order. -/
theorem getElem?_toList (b : Block) (j : Nat) : b.toList[j]? = b.get? j := by
  rw [toList, take, Nat.min_self, List.getElem?_map, get?]
  by_cases h : j < b.size
  · rw [List.getElem?_range h, if_pos h]
    rfl
  · rw [List.getElem?_eq_none (by simpa using h), if_neg h]
    rfl

/-- The bytes of a block made of bytes are these bytes. -/
theorem toList_ofList (bytes : List Byte) : (ofList bytes).toList = bytes := by
  refine List.ext_getElem? fun j => ?_
  rw [getElem?_toList, get?_ofList]

/-- A word is read where its bytes are. -/
theorem word?_ofList (front rest : List Byte) (w : Word) :
    (ofList (front ++ w.bytes ++ rest)).word? front.length = some w := by
  have hget : ∀ i (h : i < 4), (ofList (front ++ w.bytes ++ rest)).get? (front.length + i) =
      some (w.byteAt i) := by
    intro i h
    rw [get?_ofList, List.append_assoc, List.getElem?_append_right (by omega),
      Nat.add_sub_cancel_left, List.getElem?_append_left h]
    rcases i with _ | _ | _ | _ | i
    · rfl
    · rfl
    · rfl
    · rfl
    · omega
  have h0 := hget 0 (by omega)
  rw [Nat.add_zero] at h0
  rw [word?, h0, hget 1 (by omega), hget 2 (by omega), hget 3 (by omega)]
  exact congrArg some w.ofBytes_byteAt

end Block

/-! ## Addresses of the ROM -/

/-- Number of bytes before the program ROM. -/
def Layout.total (layout : Layout) : Nat :=
  layout.ram.toNat + layout.vram.toNat + layout.systemPage.toNat + layout.stack.toNat

namespace Memory

variable {layout : Layout} {image : List Byte}

/-- The ROM starts behind all other regions. -/
theorem startOf?_rom (layout : Layout) (image : List Byte) :
    startOf? .rom 0 (ofLayout layout image).regions = some layout.total := by
  simp [ofLayout, startOf?, Region.ram, Region.vram, Region.systemPage, Region.stack, Region.rom,
    Layout.total]

/-- The ROM starts behind the other regions. -/
theorem toNat_origin (h : layout.total < UInt32.size) :
    (ofLayout layout image).origin.toNat = layout.total := by
  rw [origin, baseOf?, startOf?_rom]
  simp only [if_pos h, Option.getD_some]
  exact UInt32.toNat_ofNat_of_lt' h

/-- The end of regions laid out from a start. -/
def endFrom : (start : Nat) → List Region → Nat
  | start, [] => start
  | start, r :: rest => endFrom (start + r.size) rest

theorem le_endFrom (start : Nat) (regions : List Region) : start ≤ endFrom start regions := by
  induction regions generalizing start with
  | nil => exact Nat.le_refl _
  | cons r regions ih => exact Nat.le_trans (Nat.le_add_right _ _) (ih (start + r.size))

/-- Regions that end at or before an address are passed over. -/
theorem locateFrom_append {address : Address} {access : Access} {front rest : List Region}
    {index start : Nat} (h : endFrom start front ≤ address.toNat) :
    locateFrom address access index start (front ++ rest) =
      locateFrom address access (index + front.length) (endFrom start front) rest := by
  induction front generalizing index start with
  | nil => rfl
  | cons r front ih =>
      have hle := le_endFrom (start + r.size) front
      have hrest : endFrom (start + r.size) front ≤ address.toNat := h
      rw [List.cons_append, locateFrom, if_neg (by omega), ih hrest, List.length_cons,
        Nat.add_assoc, Nat.add_comm 1]
      rfl

/-- The addresses from the origin on are in the ROM. -/
theorem locate_rom {address : Address} {n : Nat} (haddress : address.toNat = layout.total + n)
    (hn : n < (Region.rom image).size) :
    (ofLayout layout image).locate address .read = .ok ⟨4, .rom image, n⟩ := by
  let front : List Region := [.ram layout.ram.toNat, .vram layout.vram.toNat,
    .systemPage layout.systemPage.toNat, .stack layout.stack.toNat]
  have hfront : endFrom 0 front = layout.total := by
    simp only [front, endFrom, Layout.total, Region.ram, Region.vram, Region.systemPage,
      Region.stack, Nat.zero_add]
  have hpass : locateFrom address .read 0 0 (front ++ [.rom image]) =
      locateFrom address .read 4 layout.total [.rom image] := by
    rw [locateFrom_append (by omega), hfront]
    rfl
  have hsub : address.toNat - layout.total = n := by omega
  rw [locate, show (ofLayout layout image).regions = front ++ [.rom image] from rfl, hpass,
    locateFrom, if_pos (by omega), hsub]
  rfl

/-! ## Reading the ROM -/

variable {cpu : Cpu}

/-- A byte of the image is read at its place in the ROM. -/
theorem read8_rom {address : Address} {n : Nat} {v : Byte}
    (haddress : address.toNat = layout.total + n) (hv : image[n]? = some v)
    (hfits : image.length < UInt32.size) :
    (ofLayout layout image).read8 cpu address = .quiet v := by
  have hn : n < image.length := (List.getElem?_eq_some_iff.mp hv).1
  have hsize : n < (Region.rom image).size := by
    show n < min image.length (UInt32.size - 1)
    omega
  rw [read8, locate_rom haddress hsize]
  show Logged.quiet (((Block.ofList image).get? n).getD 0) = _
  rw [Block.get?_ofList, hv]
  rfl

/-- A word of the image is read at its place in the ROM. -/
theorem read32_rom {address : Address} {front rest : List Byte} {w : Word}
    (haddress : address.toNat = layout.total + front.length)
    (himage : image = front ++ w.bytes ++ rest) (hfits : image.length < UInt32.size) :
    (ofLayout layout image).read32 cpu address = .quiet (.ok w) := by
  have hlength : image.length = front.length + 4 + rest.length := by
    rw [himage, List.length_append, List.length_append, Word.length_bytes]
  have hsize : (Region.rom image).size = image.length := by
    show min image.length (UInt32.size - 1) = image.length
    omega
  have hspan : spanFits ⟨4, .rom image, front.length⟩ = true := by
    rw [spanFits, decide_eq_true_eq]
    show front.length + 4 ≤ (Region.rom image).size
    omega
  rw [read32, locate_rom haddress (by omega)]
  simp only [hspan, if_true]
  show Logged.quiet (Except.ok (((Block.ofList image).word? front.length).getD 0)) = _
  rw [himage, Block.word?_ofList]
  rfl

end Memory

/-! ## Decoding in the ROM -/

namespace Computer

/-- Where the bytes of an instruction are in a ROM, that instruction is
decoded. -/
theorem instructionAt_rom {c : Computer} {layout : Layout} {rom front rest : List Byte}
    {i : Instruction} {address : Address} (hmemory : c.memory = .ofLayout layout rom)
    (hrom : rom = front ++ i.encode ++ rest) (hfits : layout.total + rom.length < UInt32.size)
    (haddress : address.toNat = layout.total + front.length) :
    (c.instructionAt address).value = .ok i := by
  rw [Instruction.encode_eq] at hrom
  have hbelow : rom.length < UInt32.size := by omega
  have hbyte : rom[front.length]? = some i.opcode.byte := by
    rw [hrom, List.append_assoc, List.getElem?_append_right (Nat.le_refl _), Nat.sub_self]
    rfl
  have hcode : c.memory.read8 c.cpu address = .quiet i.opcode.byte := by
    rw [hmemory]
    exact Memory.read8_rom haddress hbyte hbelow
  rw [instructionAt, hcode]
  simp only [Logged.quiet, Opcode.ofByte?_byte]
  by_cases hoperand : i.opcode.hasOperand
  · have hbytes : i.operandBytes = i.operand.bytes := if_pos hoperand
    rw [hbytes] at hrom
    have hsplit : rom = (front ++ [i.opcode.byte]) ++ i.operand.bytes ++ rest := by
      rw [hrom]
      simp
    have hlength : rom.length = front.length + 1 + 4 + rest.length := by
      rw [hsplit, List.length_append, List.length_append, List.length_append, Word.length_bytes]
      rfl
    have hnext : (address + 1).toNat = layout.total + (front ++ [i.opcode.byte]).length := by
      rw [UInt32.toNat_add, haddress, List.length_append]
      exact Nat.mod_eq_of_lt (by show _ < UInt32.size; simp; omega)
    have hword : c.memory.read32 c.cpu (address + 1) = .quiet (.ok i.operand) := by
      rw [hmemory]
      exact Memory.read32_rom hnext hsplit hbelow
    rw [if_pos hoperand, hword]
    exact congrArg Except.ok i.ofOpcode_operand
  · rw [if_neg hoperand]
    rw [← Instruction.operand_eq_zero (Bool.not_eq_true _ ▸ hoperand), i.ofOpcode_operand]

/-! ## Loaded images -/

variable {config : Config} {image : List Byte}

/-- An image that is not larger than the ROM is loaded. -/
theorem load_eq (h : image.length ≤ programSize) :
    load config image = .ok (ofImage config image) := by
  rw [load, if_neg (Nat.not_lt.mpr h)]

/-- Loading an image gives the computer of this image. -/
theorem eq_ofImage_of_load {c : Computer} (h : load config image = .ok c) :
    c = ofImage config image := by
  unfold load at h
  split at h
  · contradiction
  · exact (Except.ok.inj h).symm

/-- An image that fits is padded to the size of the ROM. -/
theorem length_padImage (h : image.length ≤ programSize) :
    (padImage image).length = programSize := by
  rw [padImage, List.length_append, List.length_replicate]
  omega

/-- An instruction in an image is decoded at its offset once the image is
loaded. -/
theorem instructionAt_ofImage {front rest : List Byte} {i : Instruction}
    (hlayout : config.layout.total + programSize < UInt32.size)
    (himage : image = front ++ i.encode ++ rest) (hfits : image.length ≤ programSize) :
    ((ofImage config image).instructionAt
      ((ofImage config image).memory.origin + UInt32.ofNat front.length)).value = .ok i := by
  have hrom : padImage image =
      front ++ i.encode ++ (rest ++ List.replicate (programSize - image.length) 0) := by
    rw [padImage, ← List.append_assoc, ← himage]
  have hlength : image.length = front.length + i.size + rest.length := by
    rw [himage, List.length_append, List.length_append, Instruction.length_encode]
  have hsize := i.size_pos
  have horigin : (ofImage config image).memory.origin.toNat = config.layout.total :=
    Memory.toNat_origin (by omega)
  have hoffset : (UInt32.ofNat front.length).toNat = front.length :=
    UInt32.toNat_ofNat_of_lt' (by omega)
  refine instructionAt_rom rfl hrom (by rw [length_padImage hfits]; exact hlayout) ?_
  rw [UInt32.toNat_add, horigin, hoffset]
  exact Nat.mod_eq_of_lt (by show _ < UInt32.size; omega)

end Computer

end StackRisc
