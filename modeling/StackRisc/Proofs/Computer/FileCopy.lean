import StackRisc.Proofs.Computer.Faults
import StackRisc.Proofs.Memory.ReadBack

/-!
# StackRisc.Proofs.Computer.FileCopy

What the service that copies part of a file leaves behind.  Where its bytes
all go to RAM or VRAM that can be written, each is stored at its address, and
no other byte of memory changes (`Memory.exists_storeBytes`); of the processor
only the operand stack changes (`Computer.file_chunk_copied`).  The destination
may wrap around at the last address, and the copy may overwrite the path.
-/

namespace StackRisc

/-! ## Places in memory -/

/-- No address comes back to itself before the last one. -/
theorem add_ofNat_ne {a : Address} {k : Nat} (hpos : 0 < k) (hk : k < UInt32.size) :
    a + UInt32.ofNat k ≠ a := by
  intro hback
  have hsum := congrArg UInt32.toNat hback
  rw [UInt32.toNat_add, UInt32.toNat_ofNat_of_lt' hk] at hsum
  have ha := a.toNat_lt
  simp only [UInt32.size] at hk
  omega

namespace Memory

variable {m m' m'' : Memory} {a b : Address} {place place' : Nat × Nat} {cpu : Cpu}

/-- The byte at a place: the index of a region and an offset in its block. -/
def cell? (m : Memory) (place : Nat × Nat) : Option Byte :=
  m.regions[place.1]?.bind fun r => r.block.get? place.2

/-- The address is that of the place. -/
def Lies (m : Memory) (a : Address) (place : Nat × Nat) : Prop :=
  ∃ r, m.Owns a ⟨place.1, r, place.2⟩

/-- A byte at the address goes to RAM or VRAM that can be written. -/
def Writable (m : Memory) (a : Address) : Prop :=
  ∃ l, m.Owns a l ∧ (l.region.kind = .ram ∨ l.region.kind = .vram) ∧
    l.region.permissions.write = true

/-- No two addresses share a place. -/
theorem Lies.address_eq (h : m.Lies a place) (h' : m.Lies b place) : a = b := by
  obtain ⟨r, hr⟩ := h
  obtain ⟨r', hr'⟩ := h'
  exact UInt32.toNat_inj.mp (hr.position.trans hr'.position.symm)

/-- An address lies in one place. -/
theorem Lies.unique (h : m.Lies a place) (h' : m.Lies a place') : place = place' := by
  obtain ⟨r, hr⟩ := h
  obtain ⟨r', hr'⟩ := h'
  obtain ⟨hindex, -, hoffset⟩ := Location.mk.inj (hr.unique hr')
  exact Prod.ext hindex hoffset

/-- Places are kept along with the map. -/
theorem SameMap.lies (hmap : m.SameMap m') (h : m.Lies a place) : m'.Lies a place := by
  obtain ⟨r, hr⟩ := h
  obtain ⟨r', hr', halike⟩ := Region.exists_alike_of_getElem? hmap hr.region
  exact ⟨r', hr', by rw [hmap.start_eq]; exact hr.position, by rw [halike.size_eq]; exact hr.inside⟩

theorem SameMap.lies_iff (hmap : m.SameMap m') : m'.Lies a place ↔ m.Lies a place :=
  ⟨hmap.symm.lies, hmap.lies⟩

/-- What can be written stays so along with the map. -/
theorem SameMap.writable (hmap : m.SameMap m') (h : m.Writable a) : m'.Writable a := by
  obtain ⟨l, hl, hkind, hwrite⟩ := h
  obtain ⟨l', hl', halike⟩ := hmap.exists_owns hl
  exact ⟨l', hl', by rwa [halike.kind_eq], by rwa [halike.permissions_eq]⟩

/-! ## Storing bytes -/

/-- A memory and what bytes stored at successive addresses made of it. -/
structure Stored (m : Memory) (a : Address) (bytes : List Byte) (m' : Memory) : Prop where
  sameMap : m.SameMap m'
  /-- Each byte is at its address. -/
  stored : ∀ i < bytes.length, ∀ place, m.Lies (a + UInt32.ofNat i) place →
    m'.cell? place = bytes[i]?
  /-- There is no change at other places. -/
  kept : ∀ place, (∀ i < bytes.length, ¬ m.Lies (a + UInt32.ofNat i) place) →
    m'.cell? place = m.cell? place

/-- A byte that can be written is stored, and changes nothing else. -/
theorem exists_write_byte (hm : m.Backed) (h : m.Writable a) (cpu : Cpu) (b : Byte) :
    ∃ m' place, (m.write .byte cpu a (Word.ofByte b)).value = .ok (m', cpu) ∧ m.SameMap m' ∧
      m.Lies a place ∧ m'.cell? place = some b ∧
      ∀ other, other ≠ place → m'.cell? other = m.cell? other := by
  obtain ⟨l, hl, hkind, hwrite⟩ := h
  have hbytes : l.region.kind.HasBytes := hkind.elim .inl fun hvram => .inr (.inl hvram)
  have hblock : l.offset < l.region.block.size := Nat.lt_of_lt_of_le hl.inside (hl.backed hm hbytes)
  obtain ⟨hlt, -⟩ := List.getElem?_eq_some_iff.mp hl.region
  refine ⟨m.withBlock l (l.region.block.set l.offset b), (l.index, l.offset), ?_,
    sameMap_withBlock hl hkind (Block.size_set _ _ _), ⟨l.region, hl⟩, ?_,
    fun ⟨index, offset⟩ hne => ?_⟩
  · rw [write, Word.lowByte_ofByte, write8_of_owns hl hwrite hkind]
    rfl
  · have hregion := List.getElem?_set_self
      (a := l.region.withBlock (l.region.block.set l.offset b)) hlt
    rw [cell?, withBlock, hregion, Option.bind_some, Region.block_withBlock, Block.get?_set,
      if_pos ⟨rfl, hblock⟩]
  · by_cases hindex : index = l.index
    · subst hindex
      have hoffset : ¬ (l.offset = offset ∧ offset < l.region.block.size) :=
        fun h => hne (by rw [h.1])
      have hregion := List.getElem?_set_self
        (a := l.region.withBlock (l.region.block.set l.offset b)) hlt
      rw [cell?, cell?, withBlock, hregion, hl.region, Option.bind_some, Option.bind_some,
        Region.block_withBlock, Block.get?_set, if_neg hoffset]
    · rw [cell?, cell?, withBlock, List.getElem?_set_ne (Ne.symm hindex)]

/-- Bytes that can all be written are stored one by one. -/
theorem exists_storeBytes (hm : m.Backed) {bytes : List Byte} (hlength : bytes.length ≤ UInt32.size)
    (h : ∀ i < bytes.length, m.Writable (a + UInt32.ofNat i)) (cpu : Cpu) :
    ∃ m', m.storeBytes cpu a bytes = .ok (m', cpu) ∧ m.Stored a bytes m' := by
  induction bytes generalizing m a with
  | nil => exact ⟨m, rfl, .refl m, fun i hi => absurd hi (Nat.not_lt_zero i), fun _ _ => rfl⟩
  | cons b rest ih =>
      have hfirst : m.Writable a := by simpa using h 0 (Nat.succ_pos _)
      obtain ⟨m₁, place₁, hwrite, hmap, hlies, hcell, hothers⟩ :=
        exists_write_byte hm hfirst cpu b
      have hrest : ∀ i < rest.length, m₁.Writable (a + 1 + UInt32.ofNat i) := by
        intro i hi
        rw [← add_ofNat_succ]
        exact hmap.writable (h (i + 1) (Nat.succ_lt_succ hi))
      have hshort : rest.length < UInt32.size := hlength
      obtain ⟨m', hstore, hstored⟩ := ih (hmap.backed hm) (Nat.le_of_lt hshort) hrest
      refine ⟨m', by rw [storeBytes, hwrite]; exact hstore, hmap.trans hstored.sameMap,
        fun i hi place hplace => ?_, fun place hplace => ?_⟩
      · cases i with
        | zero =>
            -- No later byte comes back to the first address.
            have hsame : place = place₁ := by
              refine Lies.unique hplace ?_
              simpa using hlies
            subst hsame
            refine (hstored.kept place fun i hi hlater => ?_).trans hcell
            have hback := (hmap.lies hlies).address_eq hlater
            rw [← add_ofNat_succ] at hback
            exact add_ofNat_ne (Nat.succ_pos i) (Nat.lt_of_le_of_lt hi hshort) hback.symm
        | succ i =>
            rw [add_ofNat_succ] at hplace
            exact hstored.stored i (Nat.lt_of_succ_lt_succ hi) place (hmap.lies hplace)
      · rw [hstored.kept place, hothers place]
        · rintro rfl
          exact hplace 0 (Nat.succ_pos _) (by simpa using hlies)
        · intro i hi hlater
          rw [hmap.lies_iff, ← add_ofNat_succ] at hlater
          exact hplace (i + 1) (Nat.succ_lt_succ hi) hlater

end Memory

/-! ## Requests -/

namespace ChunkRequest

variable {request : ChunkRequest} {contents : List Byte}

/-- How many bytes of a file are copied: none where the offset or the size is
negative or the offset lies past the end, and else as many as were asked for,
as far as the file goes. -/
def count (request : ChunkRequest) (contents : List Byte) : Nat :=
  if 0 < request.size.toInt ∧ 0 ≤ request.offset.toInt ∧
      request.offset.toInt ≤ contents.length then
    min request.size.toInt.toNat (contents.length - request.offset.toInt.toNat)
  else 0

/-- A request copies as many bytes as it counts. -/
theorem length_bytes (request : ChunkRequest) (contents : List Byte) :
    (request.bytes contents).length = request.count contents := by
  unfold bytes count
  split
  · next hnegative =>
    have hoffset : request.offset.toInt < 0 := Int32.lt_iff_toInt_lt.mp hnegative
    rw [if_neg (by omega)]
    rfl
  · next hpositive =>
    have hoffset : ¬ request.offset.toInt < 0 :=
      fun hnegative => hpositive (Int32.lt_iff_toInt_lt.mpr hnegative)
    rw [List.length_take, List.length_drop]
    split <;> omega

/-- The bytes that are copied are those of the file from the offset on. -/
theorem getElem?_bytes {i : Nat} (hi : i < request.count contents) :
    (request.bytes contents)[i]? = contents[request.offset.toInt.toNat + i]? := by
  rw [← length_bytes] at hi
  unfold bytes at hi ⊢
  split at hi
  · simp at hi
  · next hpositive =>
    rw [List.length_take] at hi
    rw [if_neg hpositive, List.getElem?_take_of_lt (by omega), List.getElem?_drop]

/-- The count fits into an address. -/
theorem count_lt (request : ChunkRequest) (contents : List Byte) :
    request.count contents < UInt32.size := by
  have hsize := request.size.toInt_lt
  unfold count
  simp only [UInt32.size]
  split <;> omega

end ChunkRequest

namespace Computer

variable {c : Computer}

/-- With enough on the stack, dropping its top drops one operand. -/
theorem dropTop_of_le (h : c.cpu.width.bytes ≤ c.cpu.stack.size) :
    c.dropTop = c.dropOperands 1 := by
  have hall : c.cpu.width.bytes ≤ c.cpu.stack.bytes.length := h
  unfold dropTop dropOperands
  rw [Cpu.dropTop_eq, if_pos hall, Nat.one_mul]

/-- A request that is there is taken from the operand stack. -/
theorem dropRequest_of_le (h : 4 * c.cpu.width.bytes ≤ c.cpu.stack.size) :
    c.dropRequest = c.dropOperands 4 := by
  have hdrop (n : Nat) (hn : n < 4) : (c.dropOperands n).dropTop = c.dropOperands (n + 1) := by
    rw [dropTop_of_le, dropOperands_dropOperands]
    have hsize : (c.dropOperands n).cpu.stack.size = c.cpu.stack.size - n * c.cpu.width.bytes :=
      List.length_drop
    have hwidth : (c.dropOperands n).cpu.width = c.cpu.width := rfl
    have hmul : (n + 1) * c.cpu.width.bytes ≤ 4 * c.cpu.width.bytes := Nat.mul_le_mul_right _ hn
    rw [Nat.add_mul] at hmul
    rw [hsize, hwidth]
    omega
  have hfirst : c.dropTop = c.dropOperands 1 := by
    rw [← hdrop 0 (by omega), dropOperands_zero]
  rw [dropRequest, hfirst, hdrop 1 (by omega), hdrop 2 (by omega), hdrop 3 (by omega)]

end Computer

theorem Word.lowByte_ofNat (n : Nat) : lowByte (Int32.ofNat n) = UInt8.ofNat n := by
  simp [lowByte, toAddress]

/-- The length of the file is pushed in the current width. -/
theorem Cpu.push_fileLength (cpu : Cpu) (contents : List Byte) :
    cpu.push cpu.width (fileLength contents) =
      { cpu with stack :=
        match cpu.width with
        | .byte => cpu.stack.pushByte (UInt8.ofNat (min contents.length Word.largest))
        | .word => cpu.stack.pushWord (Int32.ofNat (min contents.length Word.largest)) } := by
  obtain ⟨registers, stack, calls, width⟩ := cpu
  cases width with
  | byte => simp only [push, fileLength, Word.lowByte_ofNat]
  | word => rfl

/-! ## The service -/

namespace Action

variable {c d : Computer} {path : String} {address : Address}

/-- A copy that is carried out stores its bytes. -/
theorem ends_copyChunk_ok {contents : List Byte} {count : Nat} {u : Unit} :
    (copyChunk path contents count address).Ends c (.ok u) d ↔
      ∃ memory cpu, c.memory.storeBytes c.cpu address (contents.take count) = .ok (memory, cpu) ∧
        { c with memory, cpu } = d := by
  induction contents generalizing count c address with
  | nil => cases count <;> simp [copyChunk, Memory.storeBytes]
  | cons b rest ih =>
      cases count with
      | zero => simp [copyChunk, Memory.storeBytes]
      | succ count =>
          rw [List.take_succ_cons]
          simp only [copyChunk, write8_eq_store, ends_bind, ends_store_ok, ih, Memory.storeBytes]
          cases hwrite : (c.memory.write .byte c.cpu address (Word.ofByte b)).value with
          | error cause => simp
          | ok written =>
              obtain ⟨memory, cpu⟩ := written
              simp

/-- The service succeeds when the file can be read and its bytes are stored. -/
theorem ends_readFileChunk_ok :
    readFileChunkService.Ends c (.ok ()) d ↔
      ∃ contents, c.files.read c.chunkRequest.path = .ok contents ∧
        ∃ memory cpu, c.memory.storeBytes c.dropRequest.cpu c.chunkRequest.destination
          (c.chunkRequest.bytes contents) = .ok (memory, cpu) ∧
          { c.dropRequest with memory, cpu := cpu.push cpu.width (fileLength contents) } = d := by
  simp only [← take_chunkAt]
  simp [readFileChunkService, ends_readFile_ok, ends_copyChunk_ok]
  rfl

end Action

namespace Computer

variable {c : Computer}

/-- The service that copies part of a file, where the operands are there, the
file can be read and each byte goes to RAM or VRAM that can be written.  It
succeeds: the bytes of the file from the offset on are at the addresses from
the destination on, no other byte of memory is changed, and on the operand
stack the length of the file, at most the largest word, has taken the place of
the request. -/
theorem file_chunk_copied {contents : List Byte} (hbacked : c.memory.Backed)
    (hoperands : 4 * c.cpu.width.bytes ≤ c.cpu.stack.size)
    (hread : c.files.read c.chunkRequest.path = .ok contents)
    (hwritable : ∀ i < c.chunkRequest.count contents,
      c.memory.Writable (c.chunkRequest.destination + UInt32.ofNat i)) :
    let rest : OperandStack := ⟨c.cpu.stack.bytes.drop (4 * c.cpu.width.bytes)⟩
    let length := min contents.length Word.largest
    ∃ memory,
      Syscall.readFileChunk.perform.Ends c (.ok ()) { c with
        memory
        cpu := { c.cpu with stack :=
          match c.cpu.width with
          | .byte => rest.pushByte (UInt8.ofNat length)
          | .word => rest.pushWord (Int32.ofNat length) } } ∧
      c.memory.SameMap memory ∧
      (∀ i < c.chunkRequest.count contents, ∀ place,
        c.memory.Lies (c.chunkRequest.destination + UInt32.ofNat i) place →
        memory.cell? place = contents[c.chunkRequest.offset.toInt.toNat + i]?) ∧
      ∀ place, (∀ i < c.chunkRequest.count contents,
        ¬ c.memory.Lies (c.chunkRequest.destination + UInt32.ofNat i) place) →
        memory.cell? place = c.memory.cell? place := by
  intro rest length
  have hcount := c.chunkRequest.length_bytes contents
  rw [← hcount] at hwritable
  have hfits : (c.chunkRequest.bytes contents).length ≤ UInt32.size := by
    rw [hcount]
    exact Nat.le_of_lt (c.chunkRequest.count_lt contents)
  obtain ⟨memory, hstore, hstored⟩ :=
    Memory.exists_storeBytes hbacked hfits hwritable c.dropRequest.cpu
  have hends := Action.ends_readFileChunk_ok.mpr ⟨contents, hread, memory, _, hstore, rfl⟩
  rw [Cpu.push_fileLength, dropRequest_of_le hoperands] at hends
  refine ⟨memory, hends, hstored.sameMap, fun i hi place hplace => ?_, fun place hplace => ?_⟩
  · rw [← ChunkRequest.getElem?_bytes hi]
    rw [← hcount] at hi
    exact hstored.stored i hi place hplace
  · rw [← hcount] at hplace
    exact hstored.kept place hplace

/-- A machine whose RAM, at address 0, holds the path of a file, and whose VRAM
ends with the last address.  It asks for five bytes of the file from the second
one on, to be put at the last two addresses and behind them. -/
def copying : Computer where
  cpu := {
    stack := ({} : OperandStack).pushWord 5 |>.pushWord 1 |>.pushWord (-2) |>.pushWord 0
    width := .word }
  memory := ⟨[⟨.ram, 4, ⟨true, true, false⟩, .ofList [1, 102, 0, 9]⟩, .systemPage 4294967290,
    .vram 2]⟩
  files := ⟨fun path => if path = "f" then .ok [10, 11, 12, 13, 14, 15] else .error .notInTable⟩

/-- The memory of the example is backed. -/
theorem backed_copying : copying.memory.Backed := by
  simp only [Memory.Backed, copying, List.forall_mem_cons]
  exact ⟨fun _ => Nat.le_refl 4, Region.backed_systemPage _, Region.backed_vram 2,
    List.forall_mem_nil _⟩

/-- The copy goes on at address 0, over the path. -/
theorem file_chunk_copied_wrapping :
    copying.memory.Backed ∧ 4 * copying.cpu.width.bytes ≤ copying.cpu.stack.size ∧
    copying.files.read copying.chunkRequest.path = .ok [10, 11, 12, 13, 14, 15] ∧
    (∀ i < copying.chunkRequest.count [10, 11, 12, 13, 14, 15],
      copying.memory.Writable (copying.chunkRequest.destination + UInt32.ofNat i)) ∧
    ∃ d, Syscall.readFileChunk.perform.Ends copying (.ok ()) d ∧
      d.cpu.stack.bytes = [0, 0, 0, 6] ∧ d.memory.cell? (2, 1) = some 12 ∧
      d.memory.cell? (0, 0) = some 13 ∧ d.memory.cell? (0, 3) = some 9 := by
  have hread : copying.files.read copying.chunkRequest.path = .ok [10, 11, 12, 13, 14, 15] := rfl
  have hcount : copying.chunkRequest.count [10, 11, 12, 13, 14, 15] = 5 := rfl
  have hdestination : copying.chunkRequest.destination = 4294967294 := rfl
  have hwritable : ∀ i < copying.chunkRequest.count [10, 11, 12, 13, 14, 15],
      copying.memory.Writable (copying.chunkRequest.destination + UInt32.ofNat i) := by
    intro i hi
    rw [hcount] at hi
    rw [hdestination]
    match i, hi with
    | 0, _ => exact ⟨⟨2, _, 0⟩, ⟨rfl, by decide, by decide⟩, .inr rfl, rfl⟩
    | 1, _ => exact ⟨⟨2, _, 1⟩, ⟨rfl, by decide, by decide⟩, .inr rfl, rfl⟩
    | 2, _ => exact ⟨⟨0, _, 0⟩, ⟨rfl, by decide, by decide⟩, .inl rfl, rfl⟩
    | 3, _ => exact ⟨⟨0, _, 1⟩, ⟨rfl, by decide, by decide⟩, .inl rfl, rfl⟩
    | 4, _ => exact ⟨⟨0, _, 2⟩, ⟨rfl, by decide, by decide⟩, .inl rfl, rfl⟩
  have hoperands : 4 * copying.cpu.width.bytes ≤ copying.cpu.stack.size := by decide
  obtain ⟨memory, hends, -, hstored, hkept⟩ :=
    file_chunk_copied backed_copying hoperands hread hwritable
  refine ⟨backed_copying, hoperands, hread, hwritable, _, hends, rfl, ?_, ?_, ?_⟩
  · exact hstored 1 (by decide) (2, 1) ⟨_, rfl, by decide, by decide⟩
  · exact hstored 2 (by decide) (0, 0) ⟨_, rfl, by decide, by decide⟩
  · have hbehind : ∀ i < 5, (4294967294 : Address) + UInt32.ofNat i ≠ 3 := by decide
    refine hkept (0, 3) fun i hi hlies => hbehind i hi ?_
    exact hlies.address_eq ⟨_, rfl, by decide, by decide⟩

end Computer

end StackRisc
