import StackRisc.Proofs.Computer.FileChunk
import StackRisc.Proofs.Memory.Rom

/-!
# StackRisc.Proofs.Memory.ReadBack

What is read from RAM, VRAM and ROM, and what a write there leaves to be
read.  A region with bytes holds one for each of its addresses (`Backed`), and
then a word is the four bytes from its address on:

* `Memory.read32_of_owns`, `Memory.read8_of_owns` — both accesses read the
  block of the owner at the same offset;
* `Memory.write32_of_owns`, `Memory.storeBytes_of_owns` — a word and its four
  bytes, stored one by one, leave the same block;
* `Memory.read8_withBlock` — what is not in that block is read as before;
* `Memory.read_write_laws` — the laws of reading and writing that follow.

Addresses are counted modulo `2 ^ 32`.  A region can have more bytes than
there are addresses left for it, and the word at the last address is then
followed by no other address (`Memory.word_past_last_address`).
-/

namespace StackRisc

/-! ## Backed regions -/

/-- The kinds of regions that hold bytes. -/
def RegionKind.HasBytes (kind : RegionKind) : Prop := kind = .ram ∨ kind = .vram ∨ kind = .rom

/-- Where a region holds bytes, it has one for each of its addresses. -/
def Region.Backed (r : Region) : Prop := r.kind.HasBytes → r.size ≤ r.block.size

namespace Region

theorem backed_ram (size : Nat) : (ram size).Backed := fun _ => Nat.le_refl size

theorem backed_vram (size : Nat) : (vram size).Backed := fun _ => Nat.le_refl size

theorem backed_systemPage (size : Nat) : (systemPage size).Backed := by
  rintro (h | h | h) <;> contradiction

theorem backed_stack (size : Nat) : (stack size).Backed := by
  rintro (h | h | h) <;> contradiction

theorem backed_rom (image : List Byte) : (rom image).Backed := by
  intro _
  have hsize : (Block.ofList image).size = image.length := Block.size_setAll _ 0 image
  show min image.length (UInt32.size - 1) ≤ (Block.ofList image).size
  rw [hsize]
  exact Nat.min_le_left _ _

/-- Writes keep a region backed. -/
theorem Alike.backed {r r' : Region} (h : r.Alike r') (hr : r.Backed) : r'.Backed := by
  intro hbytes
  rw [h.size_eq, h.size_block]
  exact hr (h.kind_eq ▸ hbytes)

end Region

/-- Every region of the memory that holds bytes has one for each of its
addresses. -/
def Memory.Backed (m : Memory) : Prop := ∀ r ∈ m.regions, r.Backed

namespace Memory

variable {m m' : Memory} {cpu : Cpu} {a b : Address} {l k : Location} {block : Block}

/-- Registering a backed region keeps memory backed. -/
theorem Backed.register (h : m.Backed) {r : Region} (hr : r.Backed) : (m.register r).Backed := by
  intro q hq
  rcases List.mem_append.mp hq with hmem | hnew
  · exact h q hmem
  · rw [List.mem_singleton.mp hnew]
    exact hr

/-- Every layout gives a backed memory. -/
theorem backed_ofLayout (layout : Layout) (image : List Byte) : (ofLayout layout image).Backed := by
  have hempty : Backed {} := fun _ h => absurd h List.not_mem_nil
  exact hempty.register (Region.backed_ram _)
    |>.register (Region.backed_vram _)
    |>.register (Region.backed_systemPage _)
    |>.register (Region.backed_stack _)
    |>.register (Region.backed_rom image)

/-- Writes keep a memory backed. -/
theorem SameMap.backed (h : m.SameMap m') (hm : m.Backed) : m'.Backed := by
  intro r' hr'
  obtain ⟨i, hi⟩ := List.getElem?_of_mem hr'
  obtain ⟨r, hr, halike⟩ := Region.exists_alike_of_getElem? h.symm hi
  exact halike.symm.backed (hm r (List.mem_of_getElem? hr))

/-- The region of an address is backed. -/
theorem Owns.backed (h : m.Owns a l) (hm : m.Backed) : l.region.Backed :=
  hm l.region (List.mem_of_getElem? h.region)

end Memory

/-! ## Words in a block -/

namespace Block

variable {b : Block} {i : Nat}

theorem get?_of_lt (h : i < b.size) : b.get? i = some (b.cells.get i) := if_pos h

/-- A word is the four bytes from its index on. -/
theorem word?_eq_some (h : i + 4 ≤ b.size) :
    b.word? i = some (Word.ofBytes ((b.get? i).getD 0) ((b.get? (i + 1)).getD 0)
      ((b.get? (i + 2)).getD 0) ((b.get? (i + 3)).getD 0)) := by
  have h0 : b.get? i = some (b.cells.get i) := get?_of_lt (by omega)
  have h1 : b.get? (i + 1) = some (b.cells.get (i + 1)) := get?_of_lt (by omega)
  have h2 : b.get? (i + 2) = some (b.cells.get (i + 2)) := get?_of_lt (by omega)
  have h3 : b.get? (i + 3) = some (b.cells.get (i + 3)) := get?_of_lt (by omega)
  rw [word?, h0, h1, h2, h3]
  rfl

/-- Bytes written at successive indices change no other index. -/
theorem get?_setAll_of_not_mem (b : Block) (i j : Nat) (vs : List Byte)
    (h : j < i ∨ i + vs.length ≤ j) : (b.setAll i vs).get? j = b.get? j := by
  induction vs generalizing b i with
  | nil => rfl
  | cons v vs ih =>
      rw [List.length_cons] at h
      rw [setAll, ih (b.set i v) (i + 1) (by omega), get?_set, if_neg (by omega)]

/-- Bytes that were stored are found one by one. -/
theorem get?_setAll_add {vs : List Byte} {k : Nat} {v : Byte} (h : i + vs.length ≤ b.size)
    (hv : vs[k]? = some v) : (b.setAll i vs).get? (i + k) = some v := by
  have hk : k < vs.length := (List.getElem?_eq_some_iff.mp hv).1
  rw [get?_setAll b i (i + k) vs h, if_pos (by omega), Nat.add_sub_cancel_left, hv]

/-- A stored word is read back. -/
theorem word?_setAll_bytes (h : i + 4 ≤ b.size) (w : Word) :
    (b.setAll i w.bytes).word? i = some w := by
  have h0 : (b.setAll i w.bytes).get? i = some (w.byteAt 0) := get?_setAll_add (k := 0) h rfl
  have h1 : (b.setAll i w.bytes).get? (i + 1) = some (w.byteAt 1) := get?_setAll_add h rfl
  have h2 : (b.setAll i w.bytes).get? (i + 2) = some (w.byteAt 2) := get?_setAll_add h rfl
  have h3 : (b.setAll i w.bytes).get? (i + 3) = some (w.byteAt 3) := get?_setAll_add h rfl
  rw [word?_eq_some (by rw [size_setAll]; exact h), h0, h1, h2, h3]
  exact congrArg some w.ofBytes_byteAt

end Block

/-! ## Reading -/

/-- The byte of a word at a position is that of its list of bytes. -/
theorem Word.getElem?_bytes (w : Word) {i : Nat} (h : i < 4) : w.bytes[i]? = some (w.byteAt i) := by
  rcases i with _ | _ | _ | _ | i
  · rfl
  · rfl
  · rfl
  · rfl
  · omega

/-- A region with bytes is read from its buffer. -/
theorem Region.read8_of_hasBytes {r : Region} (h : r.kind.HasBytes) (cpu : Cpu) (offset : Nat) :
    r.read8 cpu offset = .quiet ((r.block.get? offset).getD 0) := by
  rcases h with h | h | h <;> rw [read8, h]

/-- So is a word of it. -/
theorem Region.read32_of_hasBytes {r : Region} (h : r.kind.HasBytes) (cpu : Cpu) (offset : Nat) :
    r.read32 cpu offset = .quiet ((r.block.word? offset).getD 0) := by
  rcases h with h | h | h <;> rw [read32, h]

namespace Memory

variable {m m' : Memory} {cpu : Cpu} {a b : Address} {l k : Location} {block : Block} {v : Word}

/-- A byte is read from the region that owns its address. -/
theorem read8_eq_of_owns (h : m.Owns a l) (hread : l.region.permissions.read = true) :
    m.read8 cpu a = l.region.read8 cpu l.offset := by
  rw [read8, locate_of_owns h]
  simp [Access.grantedBy, hread]

/-- So is a word that fits into the region. -/
theorem read32_eq_of_owns (h : m.Owns a l) (hread : l.region.permissions.read = true)
    (hspan : l.offset + 4 ≤ l.region.size) :
    m.read32 cpu a = .ok <$> l.region.read32 cpu l.offset := by
  rw [read32, locate_of_owns h]
  simp only [Access.grantedBy, hread, spanFits, hspan, decide_true, if_true]
  rfl

/-- A byte is read from the block of its owner. -/
theorem read8_of_owns (h : m.Owns a l) (hread : l.region.permissions.read = true)
    (hkind : l.region.kind.HasBytes) :
    m.read8 cpu a = .quiet ((l.region.block.get? l.offset).getD 0) := by
  rw [read8_eq_of_owns h hread, Region.read8_of_hasBytes hkind]

/-- A word is read from the block of its owner. -/
theorem read32_of_owns (h : m.Owns a l) (hread : l.region.permissions.read = true)
    (hkind : l.region.kind.HasBytes) (hspan : l.offset + 4 ≤ l.region.size) :
    m.read32 cpu a = .quiet (.ok ((l.region.block.word? l.offset).getD 0)) := by
  rw [read32_eq_of_owns h hread hspan, Region.read32_of_hasBytes hkind]
  rfl

/-- A word whose four bytes have addresses is made of what is read there. -/
theorem read32_eq_read8 (hm : m.Backed) (h : m.Owns a l)
    (hread : l.region.permissions.read = true) (hkind : l.region.kind.HasBytes)
    (hspan : l.offset + 4 ≤ l.region.size) (ha : a.toNat + 3 < UInt32.size) :
    m.read32 cpu a = .quiet (.ok (Word.ofBytes (m.read8 cpu a).value (m.read8 cpu (a + 1)).value
      (m.read8 cpu (a + 2)).value (m.read8 cpu (a + 3)).value)) := by
  have hblock : l.offset + 4 ≤ l.region.block.size := Nat.le_trans hspan (h.backed hm hkind)
  have hbyte : ∀ i < 4, (m.read8 cpu (a + UInt32.ofNat i)).value =
      (l.region.block.get? (l.offset + i)).getD 0 := by
    intro i hi
    have howns := h.shift (i := i) (by omega) (by omega)
    rw [read8_of_owns howns hread hkind]
    rfl
  have h0 := hbyte 0 (by omega)
  rw [show a + UInt32.ofNat 0 = a from UInt32.add_zero a] at h0
  rw [read32_of_owns h hread hkind hspan, Block.word?_eq_some hblock, Option.getD_some, h0]
  congr 3
  · exact (hbyte 1 (by omega)).symm
  · exact (hbyte 2 (by omega)).symm
  · exact (hbyte 3 (by omega)).symm

end Memory

/-! ## Writing -/

namespace Region

variable {r : Region}

/-- The region with other bytes. -/
def withBlock (r : Region) (block : Block) : Region := { r with block }

@[simp] theorem kind_withBlock (block : Block) : (r.withBlock block).kind = r.kind := rfl

@[simp] theorem size_withBlock (block : Block) : (r.withBlock block).size = r.size := rfl

@[simp] theorem permissions_withBlock (block : Block) :
    (r.withBlock block).permissions = r.permissions := rfl

@[simp] theorem block_withBlock (block : Block) : (r.withBlock block).block = block := rfl

/-- A byte is written into the buffer of its region. -/
theorem write8_of_kind (h : r.kind = .ram ∨ r.kind = .vram) (cpu : Cpu) (offset : Nat)
    (a : Address) (v : Byte) :
    r.write8 cpu offset a v = .quiet (.ok (r.withBlock (r.block.set offset v), cpu)) := by
  obtain ⟨kind, size, permissions, block⟩ := r
  rcases h with rfl | rfl <;> rfl

/-- So is a word. -/
theorem write32_of_kind (h : r.kind = .ram ∨ r.kind = .vram) (cpu : Cpu) (offset : Nat)
    (a : Address) (v : Word) :
    r.write32 cpu offset a v =
      .quiet (.ok (r.withBlock ((r.block.setWord? offset v).getD r.block), cpu)) := by
  obtain ⟨kind, size, permissions, block⟩ := r
  rcases h with rfl | rfl <;> rfl

end Region

namespace Memory

variable {m m' : Memory} {cpu : Cpu} {a b : Address} {l k : Location} {block : Block} {v : Word}

/-- The memory with other bytes in the region of a location. -/
def withBlock (m : Memory) (l : Location) (block : Block) : Memory :=
  ⟨m.regions.set l.index (l.region.withBlock block)⟩

theorem withBlock_self (h : m.regions[l.index]? = some l.region) :
    m.withBlock l l.region.block = m := by
  obtain ⟨hlt, hget⟩ := List.getElem?_eq_some_iff.mp h
  have hset : m.regions.set l.index l.region = m.regions := by rw [← hget, List.set_getElem_self]
  exact congrArg Memory.mk hset

/-- The last buffer counts. -/
theorem withBlock_withBlock (m : Memory) (l : Location) (block block' : Block) (offset : Nat) :
    (m.withBlock l block).withBlock ⟨l.index, l.region.withBlock block, offset⟩ block' =
      m.withBlock l block' := by
  simp [withBlock, Region.withBlock]

/-- Another buffer of the same size keeps the map. -/
theorem sameMap_withBlock (h : m.Owns a l) (hkind : l.region.kind = .ram ∨ l.region.kind = .vram)
    (hsize : block.size = l.region.block.size) : m.SameMap (m.withBlock l block) :=
  sameMap_set h.region (Region.alike_of_block hkind hsize)

/-- Addresses of one region find the same region. -/
theorem Owns.region_eq (h : m.Owns a l) (hk : m.Owns b k) (hindex : k.index = l.index) :
    k.region = l.region := by
  have hr := hk.region
  rw [hindex, h.region] at hr
  exact (Option.some.inj hr).symm

/-- The owner of an address in the region with other bytes. -/
theorem Owns.withBlock_same (h : m.Owns a l)
    (hkind : l.region.kind = .ram ∨ l.region.kind = .vram)
    (hsize : block.size = l.region.block.size) (hk : m.Owns b k) (hindex : k.index = l.index) :
    (m.withBlock l block).Owns b ⟨l.index, l.region.withBlock block, k.offset⟩ := by
  obtain ⟨hlt, -⟩ := List.getElem?_eq_some_iff.mp h.region
  refine ⟨List.getElem?_set_self hlt, ?_, ?_⟩
  · rw [(sameMap_withBlock h hkind hsize).start_eq, ← hindex]
    exact hk.position
  · rw [Region.size_withBlock, ← h.region_eq hk hindex]
    exact hk.inside

/-- The owner of an address in another region. -/
theorem Owns.withBlock_other (h : m.Owns a l)
    (hkind : l.region.kind = .ram ∨ l.region.kind = .vram)
    (hsize : block.size = l.region.block.size) (hk : m.Owns b k) (hindex : k.index ≠ l.index) :
    (m.withBlock l block).Owns b k := by
  refine ⟨?_, ?_, hk.inside⟩
  · rw [withBlock, List.getElem?_set_ne hindex.symm]
    exact hk.region
  · rw [(sameMap_withBlock h hkind hsize).start_eq]
    exact hk.position

/-- A byte that is not in the block, or the same in it, is read as before. -/
theorem read8_withBlock (h : m.Owns a l)
    (hkind : l.region.kind = .ram ∨ l.region.kind = .vram)
    (hsize : block.size = l.region.block.size)
    (hsame : ∀ k, m.Owns b k → k.index = l.index →
      block.get? k.offset = l.region.block.get? k.offset) :
    (m.withBlock l block).read8 cpu b = m.read8 cpu b := by
  have hbytes : l.region.kind.HasBytes := hkind.elim .inl fun hvram => .inr (.inl hvram)
  by_cases hk : ∃ k, m.Owns b k
  · obtain ⟨k, hk⟩ := hk
    by_cases hindex : k.index = l.index
    · have hregion := h.region_eq hk hindex
      have hread : (l.region.withBlock block).read8 cpu k.offset =
          l.region.read8 cpu k.offset := by
        rw [Region.read8_of_hasBytes hbytes, Region.read8_of_hasBytes (r := l.region.withBlock block)
          hbytes, Region.block_withBlock, hsame k hk hindex]
      rw [read8, read8, locate_of_owns hk, locate_of_owns (h.withBlock_same hkind hsize hk hindex),
        hregion, Region.permissions_withBlock, Region.kind_withBlock]
      by_cases hgranted : Access.read.grantedBy l.region.permissions = true
      · simp only [hgranted, if_true, hread, hregion]
      · simp only [hgranted]
        rfl
    · rw [read8, read8, locate_of_owns hk,
        locate_of_owns (h.withBlock_other hkind hsize hk hindex)]
  · have hnone : ∀ k, ¬ m.Owns b k := fun k hk' => hk ⟨k, hk'⟩
    have hnone' : ∀ k, ¬ (m.withBlock l block).Owns b k := by
      intro k hk'
      obtain ⟨q, hq, -⟩ := (sameMap_withBlock h hkind hsize).symm.exists_owns hk'
      exact hnone q hq
    rw [read8, read8, locate_of_not_owned hnone, locate_of_not_owned hnone']

/-- A write goes to the region that owns its address. -/
theorem writeTarget_of_owns (h : m.Owns a l) (hwrite : l.region.permissions.write = true) :
    m.writeTarget a = .at l := by
  rw [writeTarget, locate_of_owns h]
  simp [Access.grantedBy, hwrite]

/-- A byte goes to the block of its owner. -/
theorem write8_of_owns (h : m.Owns a l) (hwrite : l.region.permissions.write = true)
    (hkind : l.region.kind = .ram ∨ l.region.kind = .vram) (v : Byte) :
    m.write8 cpu a v = .quiet (.ok (m.withBlock l (l.region.block.set l.offset v), cpu)) := by
  rw [write8, writeTarget_of_owns h hwrite]
  simp only [Region.write8_of_kind hkind]
  rfl

/-- The bytes of a word go to the block of its owner. -/
theorem write32_of_owns (hm : m.Backed) (h : m.Owns a l)
    (hwrite : l.region.permissions.write = true)
    (hkind : l.region.kind = .ram ∨ l.region.kind = .vram)
    (hspan : l.offset + 4 ≤ l.region.size) (v : Word) :
    m.write32 cpu a v =
      .quiet (.ok (m.withBlock l (l.region.block.setAll l.offset v.bytes), cpu)) := by
  have hbytes : l.region.kind.HasBytes := hkind.elim .inl fun hvram => .inr (.inl hvram)
  have hblock : l.offset + 4 ≤ l.region.block.size := Nat.le_trans hspan (h.backed hm hbytes)
  have hset : l.region.block.setWord? l.offset v =
      some (l.region.block.setAll l.offset v.bytes) := if_pos hblock
  rw [write32, writeTarget_of_owns h hwrite]
  simp only [spanFits, hspan, decide_true, if_true, Region.write32_of_kind hkind, hset]
  rfl

/-- Bytes stored one by one in a region leave what storing them at once
leaves. -/
theorem storeBytes_of_owns (hkind : l.region.kind = .ram ∨ l.region.kind = .vram)
    (hwrite : l.region.permissions.write = true) (hregion : m.regions[l.index]? = some l.region)
    {bytes : List Byte}
    (howns : ∀ i < bytes.length, m.Owns (a + UInt32.ofNat i) ⟨l.index, l.region, l.offset + i⟩) :
    m.storeBytes cpu a bytes =
      .ok (m.withBlock l (l.region.block.setAll l.offset bytes), cpu) := by
  induction bytes generalizing m a l with
  | nil => rw [Block.setAll, withBlock_self hregion]; rfl
  | cons v rest ih =>
      have h : m.Owns a l := by
        have h0 := howns 0 (Nat.succ_pos _)
        rwa [show a + UInt32.ofNat 0 = a from UInt32.add_zero a] at h0
      have hstored : m.write .byte cpu a (Word.ofByte v) =
          .quiet (.ok (m.withBlock l (l.region.block.set l.offset v), cpu)) := by
        rw [write, Word.lowByte_ofByte, write8_of_owns h hwrite hkind]
      have hrest : ∀ i < rest.length, (m.withBlock l (l.region.block.set l.offset v)).Owns
          (a + 1 + UInt32.ofNat i)
          ⟨l.index, l.region.withBlock (l.region.block.set l.offset v), l.offset + 1 + i⟩ := by
        intro i hi
        have hk := howns (i + 1) (Nat.succ_lt_succ hi)
        rw [add_ofNat_succ, Nat.add_comm i, ← Nat.add_assoc] at hk
        exact h.withBlock_same hkind (Block.size_set _ l.offset v) hk rfl
      obtain ⟨hlt, -⟩ := List.getElem?_eq_some_iff.mp hregion
      have hih := ih (m := m.withBlock l (l.region.block.set l.offset v)) (a := a + 1)
        (l := ⟨l.index, l.region.withBlock (l.region.block.set l.offset v), l.offset + 1⟩)
        hkind hwrite (List.getElem?_set_self hlt) hrest
      rw [withBlock_withBlock] at hih
      rw [storeBytes, hstored]
      exact hih

/-! ## The laws -/

/-- A word that can be read and written lies at an address of RAM or VRAM. -/
structure HoldsWord (m : Memory) (a : Address) (l : Location) : Prop where
  owns : m.Owns a l
  kind : l.region.kind = .ram ∨ l.region.kind = .vram
  readable : l.region.permissions.read = true
  writable : l.region.permissions.write = true
  span : l.offset + 4 ≤ l.region.size

namespace HoldsWord

variable (h : m.HoldsWord a l) (hm : m.Backed)

include h

theorem hasBytes : l.region.kind.HasBytes := h.kind.elim .inl fun hvram => .inr (.inl hvram)

theorem owns_withWord (v : Word) : (m.withBlock l (l.region.block.setAll l.offset v.bytes)).Owns a
    ⟨l.index, l.region.withBlock (l.region.block.setAll l.offset v.bytes), l.offset⟩ :=
  h.owns.withBlock_same h.kind (Block.size_setAll _ _ _) h.owns rfl

/-- What is not one of the four bytes is read as before. -/
theorem read8_of_ne (v : Word) (hb : ∀ i < 4, b.toNat ≠ a.toNat + i) :
    (m.withBlock l (l.region.block.setAll l.offset v.bytes)).read8 cpu b = m.read8 cpu b := by
  refine read8_withBlock h.owns h.kind (Block.size_setAll _ _ _) fun k hk hindex => ?_
  have ha := h.owns.position
  have hbk := hk.position
  rw [hindex] at hbk
  have h0 := hb 0 (by omega)
  have h1 := hb 1 (by omega)
  have h2 := hb 2 (by omega)
  have h3 := hb 3 (by omega)
  exact Block.get?_setAll_of_not_mem _ _ _ _ (by rw [Word.length_bytes]; omega)

include hm

theorem block_le : l.offset + 4 ≤ l.region.block.size :=
  Nat.le_trans h.span (h.owns.backed hm h.hasBytes)

/-- The word is read back. -/
theorem read32_eq (v : Word) :
    (m.withBlock l (l.region.block.setAll l.offset v.bytes)).read32 cpu a = .quiet (.ok v) := by
  rw [read32_of_owns (h.owns_withWord v) h.readable h.hasBytes h.span, Region.block_withBlock,
    Block.word?_setAll_bytes (h.block_le hm), Option.getD_some]

/-- Each byte of the word is read back, where it has an address. -/
theorem read8_eq (v : Word) {i : Nat} (hi : i < 4) (ha : a.toNat + i < UInt32.size) :
    (m.withBlock l (l.region.block.setAll l.offset v.bytes)).read8 cpu (a + UInt32.ofNat i) =
      .quiet (v.byteAt i) := by
  have hspan : l.offset + i < l.region.size := Nat.lt_of_lt_of_le (by omega) h.span
  have howns := (h.owns_withWord v).shift hspan ha
  rw [read8_of_owns howns h.readable h.hasBytes, Region.block_withBlock,
    Block.get?_setAll_add (h.block_le hm) (v.getElem?_bytes hi)]
  rfl

end HoldsWord

/-- Reading and writing a word at an address where there are four bytes: a
word is what is read of its bytes, a stored word and its bytes are read back,
nothing else is read differently, and storing its bytes one by one leaves the
same.  Bytes behind the last address are read with the word only. -/
theorem read_write_laws (cpu : Cpu) (hm : m.Backed) (hread : m.locate a .read = .ok l)
    (hkind : l.region.kind.HasBytes) (hspan : l.offset + 4 ≤ l.region.size) :
    (a.toNat + 3 < UInt32.size →
      m.read32 cpu a = .quiet (.ok (Word.ofBytes (m.read8 cpu a).value (m.read8 cpu (a + 1)).value
        (m.read8 cpu (a + 2)).value (m.read8 cpu (a + 3)).value))) ∧
    (l.region.kind ≠ .rom → m.locate a .write = .ok l → ∀ v, ∃ m',
      m.write32 cpu a v = .quiet (.ok (m', cpu)) ∧
      m'.read32 cpu a = .quiet (.ok v) ∧
      (∀ i < 4, a.toNat + i < UInt32.size →
        m'.read8 cpu (a + UInt32.ofNat i) = .quiet (v.byteAt i)) ∧
      (∀ b : Address, (∀ i < 4, b.toNat ≠ a.toNat + i) → m'.read8 cpu b = m.read8 cpu b) ∧
      (a.toNat + 3 < UInt32.size → m.storeBytes cpu a v.bytes = .ok (m', cpu))) := by
  obtain ⟨howns, hreadable⟩ := locate_eq_ok_iff.mp hread
  refine ⟨read32_eq_read8 hm howns hreadable hkind hspan, fun hrom hlocate v => ?_⟩
  have hwritable := (locate_eq_ok_iff.mp hlocate).2
  have hword : m.HoldsWord a l :=
    ⟨howns, hkind.imp_right fun h => h.resolve_right hrom, hreadable, hwritable, hspan⟩
  refine ⟨_, write32_of_owns hm howns hwritable hword.kind hspan v, hword.read32_eq hm v,
    fun i => hword.read8_eq hm v, fun b => hword.read8_of_ne v, fun ha => ?_⟩
  refine storeBytes_of_owns hword.kind hwritable howns.region fun i hi => ?_
  rw [Word.length_bytes] at hi
  exact howns.shift (by omega) (by omega)

/-- Two banks of RAM with an empty VRAM between them, in front of a ROM. -/
def twoBanks : Memory := ⟨[.ram 4, .vram 0, .ram 8, .rom [1, 2, 3, 4]]⟩

/-- The memory of the example is backed. -/
theorem backed_twoBanks : twoBanks.Backed := by
  simp only [Backed, twoBanks, List.forall_mem_cons]
  exact ⟨Region.backed_ram 4, Region.backed_vram 0, Region.backed_ram 8, Region.backed_rom _,
    nofun⟩

/-- A word in the first bank is read back whole and byte by byte, and the second
bank keeps its bytes. -/
theorem read_write_laws_twoBanks :
    (twoBanks.Backed ∧ twoBanks.locate 6 .read = .ok ⟨2, .ram 8, 2⟩ ∧
      twoBanks.locate 6 .write = .ok ⟨2, .ram 8, 2⟩ ∧ (6 : Address).toNat + 3 < UInt32.size) ∧
    ∃ m', twoBanks.write32 {} 6 0x04030201 = .quiet (.ok (m', {})) ∧
      m'.read32 {} 6 = .quiet (.ok 0x04030201) ∧ m'.read8 {} 7 = .quiet 2 ∧
      m'.read8 {} 12 = twoBanks.read8 {} 12 ∧
      twoBanks.storeBytes {} 6 (0x04030201 : Word).bytes = .ok (m', {}) := by
  have hread : twoBanks.locate 6 .read = .ok ⟨2, .ram 8, 2⟩ := rfl
  have hwrite : twoBanks.locate 6 .write = .ok ⟨2, .ram 8, 2⟩ := rfl
  have hlaws := read_write_laws {} backed_twoBanks hread (.inl rfl) (by decide)
  obtain ⟨m', hword, hback, hbytes, hothers, hstore⟩ := hlaws.2 nofun hwrite 0x04030201
  exact ⟨⟨backed_twoBanks, hread, hwrite, by decide⟩, m', hword, hback,
    hbytes 1 (by decide) (by decide), hothers 12 (by decide), hstore (by decide)⟩

/-- RAM that starts at the last address, behind a page that takes all others. -/
def behindWholePage : Memory := ⟨[.systemPage 4294967295, .ram 16]⟩

/-- Only the first byte of a word at the last address has an address: what
follows is address 0, which is the low byte of the program counter here.  Storing the
bytes one by one changes the program counter and not the word. -/
theorem word_past_last_address :
    behindWholePage.Backed ∧
    behindWholePage.locate 4294967295 .read = .ok ⟨1, .ram 16, 0⟩ ∧
    behindWholePage.locate 4294967295 .write = .ok ⟨1, .ram 16, 0⟩ ∧
    ∃ m', behindWholePage.write32 {} 4294967295 0x04030201 = .quiet (.ok (m', {})) ∧
      m'.read32 {} 4294967295 = .quiet (.ok 0x04030201) ∧
      (m'.read8 {} (4294967295 + 1)).value = 0xfc ∧ (0x04030201 : Word).byteAt 1 = 2 ∧
      ∃ m'' cpu, cpu.registers.pc = 2 ∧
        behindWholePage.storeBytes {} 4294967295 (0x04030201 : Word).bytes = .ok (m'', cpu) := by
  have hm : behindWholePage.Backed := by
    simp only [Backed, behindWholePage, List.forall_mem_cons]
    exact ⟨Region.backed_systemPage _, Region.backed_ram 16, nofun⟩
  exact ⟨hm, rfl, rfl, _, rfl, rfl, rfl, rfl, _, _, rfl, rfl⟩

end Memory

end StackRisc
