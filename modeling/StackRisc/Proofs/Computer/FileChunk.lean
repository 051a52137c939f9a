import StackRisc.Computer.Service
import StackRisc.Proofs.Computer.Action

/-!
# StackRisc.Proofs.Computer.FileChunk

The service that copies part of a file into memory.  What it is asked for
stands on the operand stack (`Computer.chunkRequest`); it faults when the
file cannot be read or when one of the bytes it copies is refused, and then
the bytes in front of that one have been stored:

* `Action.ends_readFileChunk_error` — every way in which the service faults;
* `Memory.StopsAt.exists_split` — what a copy that stops has stored;
* `Memory.exists_stopsAt_iff` — a copy stops exactly when it meets the stack
  view or the ROM.
-/

namespace StackRisc

/-! ## Texts in memory -/

theorem add_ofNat_succ (address : Address) (k : Nat) :
    address + UInt32.ofNat (k + 1) = address + 1 + UInt32.ofNat k := by
  rw [UInt32.ofNat_add, UInt32.add_assoc, UInt32.add_comm (UInt32.ofNat k)]
  rfl

/-- The text at an address: a byte for its length, then as many characters. -/
def Memory.text (m : Memory) (cpu : Cpu) (address : Address) : String :=
  String.ofList ((List.range (m.read8 cpu address).value.toNat).map fun i =>
    Char.ofNat (m.read8 cpu (address + 1 + UInt32.ofNat i)).value.toNat)

namespace Action

variable {c d : Computer} {address : Address}

/-- Characters are read byte by byte, without a failure. -/
theorem ends_readChars {count : Nat} {r : Except Fault (List Char)} :
    (readChars count address).Ends c r d ↔
      .ok ((List.range count).map fun i =>
        Char.ofNat (c.memory.read8 c.cpu (address + UInt32.ofNat i)).value.toNat) = r ∧ c = d := by
  induction count generalizing address r with
  | zero => simp [readChars]
  | succ count ih =>
      simp only [List.range_succ_eq_map, List.map_cons, List.map_map, Function.comp_def,
        Nat.succ_eq_add_one, add_ofNat_succ]
      simp [readChars, ih, and_comm]

/-- Reading a text changes nothing. -/
@[simp] theorem ends_readText {r : Except Fault String} :
    (readText address).Ends c r d ↔ .ok (c.memory.text c.cpu address) = r ∧ c = d := by
  simp [readText, ends_readChars, Memory.text, and_comm]

end Action

/-! ## Storing bytes -/

namespace Memory

variable {m m' : Memory} {cpu cpu' : Cpu} {address : Address} {bytes : List Byte}
  {cause : MemoryFault}

/-- Memory and processor after bytes were stored at successive addresses. -/
def storeBytes (m : Memory) (cpu : Cpu) (address : Address) :
    List Byte → Except MemoryFault (Memory × Cpu)
  | [] => .ok (m, cpu)
  | b :: rest =>
    match (m.write .byte cpu address (Word.ofByte b)).value with
    | .ok (m, cpu) => storeBytes m cpu (address + 1) rest
    | .error fault => .error fault

/-- Storing bytes keeps the map of memory. -/
theorem sameMap_of_storeBytes (h : m.storeBytes cpu address bytes = .ok (m', cpu')) :
    m.SameMap m' ∧ cpu.SameOffPage cpu' := by
  induction bytes generalizing m cpu address with
  | nil =>
      obtain ⟨rfl, rfl⟩ := Prod.mk.inj (Except.ok.inj h)
      exact ⟨.refl m, .refl cpu⟩
  | cons b rest ih =>
      rw [storeBytes] at h
      split at h
      · next m₁ cpu₁ hwrite =>
        obtain ⟨hmap, hcpu⟩ := sameMap_of_write hwrite
        obtain ⟨hmap', hcpu'⟩ := ih h
        exact ⟨hmap.trans hmap', hcpu.trans hcpu'⟩
      · contradiction

/-- Storing bytes at successive addresses stops at the first one that is
refused, after those in front of it have been stored. -/
inductive StopsAt : Memory → Cpu → Address → List Byte → MemoryFault → Memory → Cpu → Prop
  | refused {m cpu address b rest cause}
      (h : (m.write .byte cpu address (Word.ofByte b)).value = .error cause) :
      StopsAt m cpu address (b :: rest) cause m cpu
  | stored {m cpu address b rest cause m₁ cpu₁ m' cpu'}
      (h : (m.write .byte cpu address (Word.ofByte b)).value = .ok (m₁, cpu₁))
      (hrest : StopsAt m₁ cpu₁ (address + 1) rest cause m' cpu') :
      StopsAt m cpu address (b :: rest) cause m' cpu'

/-- A byte is refused exactly where memory is guarded. -/
theorem refuses_byte_iff : m.Refuses .byte address ↔ m.Guards address := by
  simp [Refuses]

@[simp] theorem stopsAt_nil : ¬ StopsAt m cpu address [] cause m' cpu' := nofun

/-- A copy that stops has stored the bytes in front of the refused one, which
was to go to the stack view or the ROM. -/
theorem StopsAt.exists_split (h : StopsAt m cpu address bytes cause m' cpu') :
    ∃ front b rest, bytes = front ++ b :: rest ∧
      m.storeBytes cpu address front = .ok (m', cpu') ∧
      m.Guards (address + UInt32.ofNat front.length) := by
  induction h with
  | @refused m cpu address b rest cause hwrite =>
      refine ⟨[], b, rest, rfl, rfl, ?_⟩
      have hguards := refuses_byte_iff.mp (write_eq_error_iff.mp ⟨cause, hwrite⟩)
      simpa using hguards
  | @stored m cpu address b rest cause m₁ cpu₁ m' cpu' hwrite hrest ih =>
      obtain ⟨front, b', rest', rfl, hstore, hguards⟩ := ih
      refine ⟨b :: front, b', rest', rfl, ?_, ?_⟩
      · rw [storeBytes, hwrite]
        exact hstore
      · rw [List.length_cons, add_ofNat_succ]
        exact (sameMap_of_write hwrite).1.guards_iff.mp hguards

/-- A copy stops exactly when one of its bytes goes to the stack view or the
ROM. -/
theorem exists_stopsAt_iff :
    (∃ cause m' cpu', StopsAt m cpu address bytes cause m' cpu') ↔
      ∃ k < bytes.length, m.Guards (address + UInt32.ofNat k) := by
  constructor
  · rintro ⟨cause, m', cpu', h⟩
    obtain ⟨front, b, rest, rfl, -, hguards⟩ := h.exists_split
    exact ⟨front.length, by simp, hguards⟩
  · rintro ⟨k, hk, hguards⟩
    -- A stored byte leaves the map as it is, so the guarded address stays guarded.
    induction bytes generalizing m cpu address k with
    | nil => simp at hk
    | cons b rest ih =>
        rcases m.write_cases .byte cpu address (Word.ofByte b) with
          ⟨-, cause, herror⟩ | ⟨hnot, m₁, cpu₁, hok, hmap, -⟩
        · exact ⟨cause, m, cpu, .refused herror⟩
        · cases k with
          | zero =>
              have hfirst : m.Guards address := by simpa using hguards
              exact absurd (refuses_byte_iff.mpr hfirst) hnot
          | succ k =>
              rw [add_ofNat_succ] at hguards
              obtain ⟨cause, m', cpu', hstops⟩ :=
                ih k (Nat.lt_of_succ_lt_succ hk) (hmap.guards_iff.mpr hguards)
              exact ⟨cause, m', cpu', .stored hok hstops⟩

end Memory

/-! ## Requests -/

/-- What the service is asked for: the file, where to put its bytes, and
which of them. -/
structure ChunkRequest where
  path : String
  destination : Address
  offset : Word
  size : Word

/-- The bytes of a file that are copied: as many as were asked for, as far as
the file goes. -/
def ChunkRequest.bytes (request : ChunkRequest) (contents : List Byte) : List Byte :=
  if request.offset < 0 then []
  else (contents.drop request.offset.toInt.toNat).take request.size.toInt.toNat

/-- The request on the operand stack: the address of the path on top, then
the destination, the offset and the size. -/
def Computer.chunkRequest (c : Computer) : ChunkRequest where
  path := c.memory.text c.dropTop.cpu c.cpu.top.toAddress
  destination := c.dropTop.cpu.top.toAddress
  offset := c.dropTop.dropTop.cpu.top
  size := c.dropTop.dropTop.dropTop.cpu.top

/-- The machine without the request. -/
def Computer.dropRequest (c : Computer) : Computer := c.dropTop.dropTop.dropTop.dropTop

namespace Action

variable {c d : Computer} {address : Address} {path : String} {fault : Fault}

theorem write8_eq_store (b : Byte) : write8 address b = store .byte address (Word.ofByte b) := by
  rw [store, Word.lowByte_ofByte]

/-- A copy faults where storing its bytes stops. -/
theorem ends_copyChunk_error {contents : List Byte} {count : Nat} :
    (copyChunk path contents count address).Ends c (.error fault) d ↔
      ∃ cause memory cpu,
        Memory.StopsAt c.memory c.cpu address (contents.take count) cause memory cpu ∧
        .exception (.memory cause) = fault ∧ { c with memory, cpu } = d := by
  induction contents generalizing count c address with
  | nil => cases count <;> simp [copyChunk]
  | cons b rest ih =>
      cases count with
      | zero => simp [copyChunk]
      | succ count =>
          rw [List.take_succ_cons]
          simp only [copyChunk, write8_eq_store, ends_bind, ends_store_ok, ends_store_error, ih]
          constructor
          · rintro (⟨-, -, ⟨m₁, cpu₁, hwrite, rfl⟩, cause, memory, cpu, hstops, hfault, hd⟩ |
              ⟨fault, ⟨⟨cause, hwrite, hfault⟩, rfl⟩, heq⟩)
            · exact ⟨cause, memory, cpu, .stored hwrite hstops, hfault, hd⟩
            · exact ⟨cause, c.memory, c.cpu, .refused hwrite, hfault.trans (Except.error.inj heq),
                rfl⟩
          · rintro ⟨cause, memory, cpu, hstops, hfault, rfl⟩
            cases hstops with
            | refused hwrite => exact .inr ⟨fault, ⟨⟨cause, hwrite, hfault⟩, rfl⟩, rfl⟩
            | stored hwrite hrest =>
                exact .inl ⟨(), _, ⟨_, _, hwrite, rfl⟩, cause, memory, cpu, hrest, hfault, rfl⟩

/-- A file that cannot be read is reported with its path. -/
theorem ends_readFile_error :
    (readFile path).Ends c (.error fault) d ↔
      ∃ cause, c.files.read path = .error cause ∧ .file path cause = fault ∧ c = d := by
  cases h : c.files.read path with
  | ok contents => simp [readFile, h]
  | error cause => simp [readFile, h]

/-- A file is read as the host gives it. -/
theorem ends_readFile_ok {contents : List Byte} :
    (readFile path).Ends c (.ok contents) d ↔ c.files.read path = .ok contents ∧ c = d := by
  cases h : c.files.read path with
  | ok contents => simp [readFile, h]
  | error cause => simp [readFile, h]

/-- A chunk is what a file has from an offset on, up to a size. -/
theorem take_chunkAt (request : ChunkRequest) (contents : List Byte) :
    (chunkAt contents request.offset).take request.size.toInt.toNat = request.bytes contents := by
  unfold chunkAt ChunkRequest.bytes
  split
  · exact List.take_nil
  · rfl

/-- The service faults when the file cannot be read, or when storing its
bytes stops. -/
theorem ends_readFileChunk_error :
    readFileChunkService.Ends c (.error fault) d ↔
      (∃ cause, c.files.read c.chunkRequest.path = .error cause ∧
        .file c.chunkRequest.path cause = fault ∧ c.dropRequest = d) ∨
      ∃ contents, c.files.read c.chunkRequest.path = .ok contents ∧
        ∃ cause memory cpu, Memory.StopsAt c.memory c.dropRequest.cpu c.chunkRequest.destination
          (c.chunkRequest.bytes contents) cause memory cpu ∧
          .exception (.memory cause) = fault ∧ { c.dropRequest with memory, cpu } = d := by
  simp only [← take_chunkAt]
  simp [readFileChunkService, ends_readFile_error, ends_readFile_ok, ends_copyChunk_error]
  exact or_comm

end Action

end StackRisc
