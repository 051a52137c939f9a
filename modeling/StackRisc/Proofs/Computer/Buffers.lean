import StackRisc.Proofs.Computer.AddressMap

/-!
# StackRisc.Proofs.Computer.Buffers

Regions and the bytes behind them.  RAM, VRAM and ROM are made with a byte for
each of their addresses (`Region.Made.filled`), and neither a read, a write, a
change of permissions nor a step gives or takes one (`Computer.filled_use`).
So where an access lands there is a byte to read or to write, and a whole word
where the span of a word was checked (`Memory.Filled.intact`): nothing is made
up for a read and no write is lost, whatever is done with a machine
(`Computer.buffers_match_sizes`).
-/

namespace StackRisc

/-! ## Regions as they are made -/

/-- A region as it is made: of any size, a ROM for any image whose bytes can all
be counted by an address. -/
inductive Region.Made : Region → Prop
  | ram (size : Nat) : Made (.ram size)
  | vram (size : Nat) : Made (.vram size)
  | systemPage (size : Nat) : Made (.systemPage size)
  | stack (size : Nat) : Made (.stack size)
  | rom (image : List Byte) (hsize : image.length < UInt32.size) : Made (.rom image)

/-- Where a region holds bytes, it has exactly one for each of its addresses. -/
def Region.Filled (r : Region) : Prop := r.kind.HasBytes → r.block.size = r.size

namespace Region

variable {r r' : Region}

/-- A region is made with a byte for each of its addresses. -/
theorem Made.filled (h : r.Made) : r.Filled := by
  cases h with
  | ram size => exact fun _ => rfl
  | vram size => exact fun _ => rfl
  | systemPage size | stack size => rintro (hkind | hkind | hkind) <;> contradiction
  | rom image hsize =>
      intro _
      show (Block.ofList image).size = min image.length (UInt32.size - 1)
      rw [Block.ofList, Block.size_setAll, Nat.min_eq_left (by omega)]
      rfl

/-- A region with a byte for each of its addresses is backed. -/
theorem Filled.backed (h : r.Filled) : r.Backed := fun hbytes => Nat.le_of_eq (h hbytes).symm

/-- Writes give a region no byte and take none. -/
theorem Alike.filled (h : r.Alike r') (hr : r.Filled) : r'.Filled := by
  intro hbytes
  rw [h.size_eq, h.size_block]
  exact hr (h.kind_eq ▸ hbytes)

end Region

/-! ## Memories -/

namespace Memory

variable {m m' : Memory} {cpu cpu' : Cpu} {a : Address} {l : Location} {bytes : List Byte}

/-- Every region of the memory is as it was made. -/
def Made (m : Memory) : Prop := ∀ r ∈ m.regions, r.Made

/-- Every region of the memory that holds bytes has exactly one for each of its
addresses. -/
def Filled (m : Memory) : Prop := ∀ r ∈ m.regions, r.Filled

theorem Made.filled (h : m.Made) : m.Filled := fun r hr => (h r hr).filled

theorem Filled.backed (h : m.Filled) : m.Backed := fun r hr => (h r hr).backed

/-- Buffers keep their sizes along with the map. -/
theorem SameMap.filled (h : m.SameMap m') (hm : m.Filled) : m'.Filled := by
  intro r' hr'
  obtain ⟨i, hi⟩ := List.getElem?_of_mem hr'
  obtain ⟨r, hr, halike⟩ := Region.exists_alike_of_getElem? h.symm hi
  exact halike.symm.filled (hm r (List.mem_of_getElem? hr))

/-- Permissions have nothing to do with the bytes of a region. -/
theorem filled_change {kind : RegionKind} {p : Permissions} {rs rs' : List Region}
    (h : setPermissions?.change kind p rs = some rs') (hrs : ∀ r ∈ rs, r.Filled) :
    ∀ r ∈ rs', r.Filled := by
  induction rs generalizing rs' with
  | nil => contradiction
  | cons r rest ih =>
      obtain ⟨hr, hrest⟩ := List.forall_mem_cons.mp hrs
      rw [setPermissions?.change] at h
      split at h
      · rw [← Option.some.inj h]
        exact List.forall_mem_cons.mpr ⟨hr, hrest⟩
      · obtain ⟨rest', hchanged, rfl⟩ := Option.map_eq_some_iff.mp h
        exact List.forall_mem_cons.mpr ⟨hr, ih hchanged hrest⟩

/-- Permissions leave buffers alone. -/
theorem Filled.setPermissions (hm : m.Filled) (kind : RegionKind) (p : Permissions) :
    ((m.setPermissions? kind p).getD m).Filled := by
  cases h : m.setPermissions? kind p with
  | none => exact hm
  | some m' =>
      obtain ⟨rs', hchanged, rfl⟩ := Option.map_eq_some_iff.mp h
      exact filled_change hchanged hm

/-! ## Accesses -/

/-- An address that a region with bytes owns is within its buffer. -/
theorem Filled.offset_lt (hm : m.Filled) (h : m.Owns a l) (hkind : l.region.kind.HasBytes) :
    l.offset < l.region.block.size := by
  rw [hm l.region (List.mem_of_getElem? h.region) hkind]
  exact h.inside

/-- So is a word that fits into the region. -/
theorem Filled.span_le (hm : m.Filled) (h : m.Owns a l) (hkind : l.region.kind.HasBytes)
    (hspan : spanFits l = true) : l.offset + 4 ≤ l.region.block.size := by
  rw [hm l.region (List.mem_of_getElem? h.region) hkind]
  exact of_decide_eq_true hspan

/-- A read that does not land is reported. -/
theorem log_read_ne_nil (h : ∀ l, m.locate a .read ≠ .ok l) (cpu : Cpu) :
    (m.read8 cpu a).log ≠ [] ∧ (m.read32 cpu a).log ≠ [] := by
  cases hlocate : m.locate a .read with
  | ok l => exact absurd hlocate (h l)
  | error fault => simp [read8, read32, hlocate, Logged.noting]

/-- A write that does not land is reported or refused. -/
theorem log_write_ne_nil (h : ∀ l, m.locate a .write ≠ .ok l) (width : Width) (cpu : Cpu)
    (v : Word) : (m.write width cpu a v).log ≠ [] ∨
      ∃ fault, (m.write width cpu a v).value = .error fault := by
  cases htarget : m.writeTarget a with
  | «at» l =>
      rw [writeTarget] at htarget
      split at htarget
      · next hlocate => exact absurd hlocate (h _)
      · split at htarget
        · split at htarget <;> contradiction
        · contradiction
  | ignored fault =>
      left
      cases width <;> simp [write, write8, write32, htarget, Logged.noting]
  | refused fault =>
      right
      cases width <;> simp [write, write8, write32, htarget, Logged.quiet]

/-- The bytes that accesses go to are there. -/
structure Intact (m : Memory) : Prop where
  size_block : ∀ r ∈ m.regions, r.kind.HasBytes → r.block.size = r.size
  /-- Where an access lands there is a byte, and a word if its span was checked. -/
  inside : ∀ a access l, m.locate a access = .ok l → l.region.kind.HasBytes →
    l.offset < l.region.block.size ∧
      (spanFits l = true → l.offset + 4 ≤ l.region.block.size)
  read8 : ∀ cpu a l, m.locate a .read = .ok l → l.region.kind.HasBytes →
    ∃ b, l.region.block.get? l.offset = some b ∧ m.read8 cpu a = .quiet b
  read32 : ∀ cpu a l, m.locate a .read = .ok l → l.region.kind.HasBytes → spanFits l = true →
    ∃ w, l.region.block.word? l.offset = some w ∧ m.read32 cpu a = .quiet (.ok w)
  write8 : ∀ cpu a l v, m.locate a .write = .ok l →
    l.region.kind = .ram ∨ l.region.kind = .vram →
    m.write8 cpu a v = .quiet (.ok (m.withBlock l (l.region.block.set l.offset v), cpu)) ∧
      (l.region.block.set l.offset v).get? l.offset = some v
  write32 : ∀ cpu a l v, m.locate a .write = .ok l →
    l.region.kind = .ram ∨ l.region.kind = .vram → spanFits l = true →
    ∃ block, l.region.block.setWord? l.offset v = some block ∧
      block.word? l.offset = some v ∧
      m.write32 cpu a v = .quiet (.ok (m.withBlock l block, cpu))
  /-- Where a read does not land, it is reported. -/
  reports_read : ∀ cpu a, (∀ l, m.locate a .read ≠ .ok l) →
    (m.read8 cpu a).log ≠ [] ∧ (m.read32 cpu a).log ≠ []
  /-- Where a write does not land, it is reported or refused. -/
  reports_write : ∀ width cpu a v, (∀ l, m.locate a .write ≠ .ok l) →
    (m.write width cpu a v).log ≠ [] ∨ ∃ fault, (m.write width cpu a v).value = .error fault

/-- In filled memory, the bytes that accesses go to are there. -/
theorem Filled.intact (hm : m.Filled) : m.Intact where
  size_block := hm
  inside a access l hlocate hkind := by
    have howns := (locate_eq_ok_iff.mp hlocate).1
    exact ⟨hm.offset_lt howns hkind, hm.span_le howns hkind⟩
  read8 cpu a l hlocate hkind := by
    obtain ⟨howns, hgranted⟩ := locate_eq_ok_iff.mp hlocate
    have hbyte := Block.get?_of_lt (hm.offset_lt howns hkind)
    exact ⟨_, hbyte, by rw [read8_of_owns howns hgranted hkind, hbyte, Option.getD_some]⟩
  read32 cpu a l hlocate hkind hspan := by
    obtain ⟨howns, hgranted⟩ := locate_eq_ok_iff.mp hlocate
    have hword := Block.word?_eq_some (hm.span_le howns hkind hspan)
    refine ⟨_, hword, ?_⟩
    rw [read32_of_owns howns hgranted hkind (of_decide_eq_true hspan), hword, Option.getD_some]
  write8 cpu a l v hlocate hkind := by
    obtain ⟨howns, hgranted⟩ := locate_eq_ok_iff.mp hlocate
    have hbytes : l.region.kind.HasBytes := hkind.elim .inl fun hvram => .inr (.inl hvram)
    refine ⟨write8_of_owns howns hgranted hkind v, ?_⟩
    rw [Block.get?_set, if_pos ⟨rfl, hm.offset_lt howns hbytes⟩]
  write32 cpu a l v hlocate hkind hspan := by
    obtain ⟨howns, hgranted⟩ := locate_eq_ok_iff.mp hlocate
    have hbytes : l.region.kind.HasBytes := hkind.elim .inl fun hvram => .inr (.inl hvram)
    have hle := hm.span_le howns hbytes hspan
    exact ⟨_, if_pos hle, Block.word?_setAll_bytes hle v,
      write32_of_owns hm.backed howns hgranted hkind (of_decide_eq_true hspan) v⟩
  reports_read cpu a h := log_read_ne_nil h cpu
  reports_write width cpu a v h := log_write_ne_nil h width cpu v

end Memory

/-! ## What is done with a machine -/

/-- One thing that is done with the memory of a machine. -/
inductive MemoryUse where
  | read (width : Width) (address : Address)
  | write (width : Width) (address : Address) (v : Word)
  | permit (kind : RegionKind) (permissions : Permissions)
  | step

namespace Computer

variable {c : Computer}

/-- The machine after something was done with its memory, whatever came of it. -/
def use (c : Computer) : MemoryUse → Computer
  | .read width address => ((Action.load width address).run c).computer
  | .write width address v => ((Action.store width address v).run c).computer
  | .permit kind permissions =>
    { c with memory := (c.memory.setPermissions? kind permissions).getD c.memory }
  | .step => c.step.computer

/-- Nothing that is done gives a region a byte or takes one. -/
theorem filled_use (h : c.memory.Filled) (u : MemoryUse) : (c.use u).memory.Filled := by
  cases u with
  | read width address =>
      have hmap := (Action.guest_load width address).keeps Memory.stable_sameMap (c := c) ⟨rfl, rfl⟩
      exact hmap.filled h
  | write width address v =>
      have hmap := Action.keeps_store Memory.stable_sameMap width address v (c := c) ⟨rfl, rfl⟩
      exact hmap.filled h
  | permit kind permissions => exact h.setPermissions kind permissions
  | step =>
      have hmap := Action.keeps_step Memory.stable_sameMap (c := c) ⟨rfl, rfl⟩
      exact hmap.filled h

/-- Memory stays filled, whatever it is used for. -/
theorem filled_uses (h : c.memory.Filled) (uses : List MemoryUse) :
    (uses.foldl use c).memory.Filled := by
  induction uses generalizing c with
  | nil => exact h
  | cons u uses ih => exact ih (filled_use h u)

/-- Regions have as many bytes as addresses.  Whatever the regions of a machine
are made of, and whatever was read, written, permitted and executed, every RAM,
VRAM and ROM has exactly one byte for each of its addresses.  An access that
lands there finds a byte, and a word if its span was checked: a read gives what
is there, a write is stored, and where neither lands this is reported.  The
same holds between the bytes that a step copies from a file. -/
theorem buffers_match_sizes (hmade : c.memory.Made) (uses : List MemoryUse) :
    (uses.foldl use c).memory.Intact ∧
    ∀ cpu a bytes m' cpu',
      (uses.foldl use c).memory.storeBytes cpu a bytes = .ok (m', cpu') → m'.Intact := by
  have hfilled := filled_uses hmade.filled uses
  exact ⟨hfilled.intact, fun cpu a bytes m' cpu' hstore =>
    ((Memory.sameMap_of_storeBytes hstore).1.filled hfilled).intact⟩

/-- A machine with two banks of RAM, an empty VRAM between them, and a ROM. -/
def withTwoBanks : Computer where
  cpu := { registers := { pc := 12 } }
  memory := Memory.twoBanks
  files := .empty

/-- A word goes to the second bank though the first may not be written any more,
and it is still there after a step that faults. -/
theorem buffers_match_sizes_two_banks :
    withTwoBanks.memory.Made ∧
    let uses := [.permit .ram ⟨true, false, false⟩, .write .word 6 0x04030201, .step,
      .read .byte 0]
    (uses.foldl use withTwoBanks).memory.Intact ∧
    (uses.foldl use withTwoBanks).memory.read32 {} 6 = .quiet (.ok 0x04030201) := by
  have hmade : withTwoBanks.memory.Made := by
    simp only [Memory.Made, withTwoBanks, Memory.twoBanks, List.forall_mem_cons]
    exact ⟨.ram 4, .vram 0, .ram 8, .rom _ (by decide), List.forall_mem_nil _⟩
  exact ⟨hmade, (buffers_match_sizes hmade _).1, rfl⟩

end Computer

end StackRisc
