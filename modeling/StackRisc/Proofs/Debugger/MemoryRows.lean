import Mathlib.Data.List.Nodup
import StackRisc.Proofs.Debugger.Typing
import StackRisc.Proofs.Text.Digits

/-!
# StackRisc.Proofs.Debugger.MemoryRows

Bytes of memory as the debugger shows them: eight in a row, behind the address
of the first one.  The rows are counted apart from the loop that shows them, and
the address of a row is computed from its number:

* `log_memoryRows_rows` — the rows that are shown, each behind what is told
  while its bytes are read;
* `flatMap_cells_rows` — the bytes of all rows, each with its own address;
* `Row.read_event` — a row is read back from its text;
* `memoryRows_show_once` — every byte is shown once, under its own address.
-/

namespace StackRisc.Debugger

open Text

/-! ## Rows -/

/-- A row of bytes behind an address. -/
structure Row where
  address : Address
  bytes : List Byte
  deriving DecidableEq, Repr

namespace Row

/-- A row as it is shown. -/
def event (r : Row) : Event := memoryRow r.address r.bytes

/-- The bytes of a row, each with its own address. -/
def cells (r : Row) : List (Address × Byte) :=
  r.bytes.mapIdx fun j b => (r.address + UInt32.ofNat j, b)

/-- The numbers in the text of a row: the digits behind `0x`, and those between
the spaces from the place of the first byte on. -/
def read (text : List Char) : Nat × List Nat :=
  (ofDigits 16 ((text.drop 2).take 8), (pieces ' ' (text.drop 12)).map (ofDigits 16))

end Row

/-- How many rows some bytes fill, the last one maybe in part. -/
def rowCount (count : Nat) : Nat := (count + 7) / 8

/-- Row number `k` of some bytes from an address on. -/
def rowAt (c : Computer) (count : Nat) (start : Address) (k : Nat) : Row :=
  let address := start + UInt32.ofNat (8 * k)
  ⟨address, bytesAt c (min 8 (count - 8 * k)) address⟩

/-- The rows of some bytes from an address on. -/
def rows (c : Computer) (count : Nat) (start : Address) : List Row :=
  (List.range (rowCount count)).map (rowAt c count start)

section

variable (c : Computer) (count : Nat) (start : Address)

@[simp] theorem length_bytesAt : (bytesAt c count start).length = count := by simp [bytesAt]

/-- Eight bytes make a row. -/
@[simp] theorem length_rows : (rows c count start).length = rowCount count := by simp [rows]

theorem rows_zero : rows c 0 start = [] := rfl

/-- The rows behind the first one are those of the rest. -/
theorem rowAt_succ (k : Nat) :
    rowAt c count start (k + 1) = rowAt c (count - 8) (start + 8) k := by
  have haddress : start + UInt32.ofNat (8 * (k + 1)) = start + 8 + UInt32.ofNat (8 * k) := by
    rw [Nat.mul_succ, Nat.add_comm, UInt32.ofNat_add, UInt32.add_assoc]
    rfl
  have hsize : count - 8 * (k + 1) = count - 8 - 8 * k := by omega
  rw [rowAt, rowAt, haddress, hsize]

variable {count}

/-- The first row, and the rows of the bytes behind it. -/
theorem rows_of_ne_zero (h : count ≠ 0) :
    rows c count start =
      ⟨start, bytesAt c (min 8 count) start⟩ :: rows c (count - 8) (start + 8) := by
  have hcount : rowCount count = rowCount (count - 8) + 1 := by
    simp only [rowCount]
    omega
  have hfirst : rowAt c count start 0 = ⟨start, bytesAt c (min 8 count) start⟩ := by
    simp [rowAt]
  rw [rows, hcount, List.range_succ_eq_map, List.map_cons, List.map_map, hfirst]
  congr 1
  exact List.map_congr_left fun k _ => rowAt_succ c count start k

/-- No row is empty. -/
theorem bytes_ne_nil_of_mem_rows {r : Row} (h : r ∈ rows c count start) : r.bytes ≠ [] := by
  obtain ⟨k, hk, rfl⟩ := List.mem_map.mp h
  rw [List.mem_range, rowCount] at hk
  have hlength : (rowAt c count start k).bytes.length = min 8 (count - 8 * k) :=
    length_bytesAt c _ _
  rw [← List.length_pos_iff, hlength]
  omega

end

/-! ## What is told -/

/-- Reading bytes reports what reading each of them does. -/
theorem log_readBytes (c : Computer) (count : Nat) (start : Address) :
    (readBytes c count start).log =
      (List.range count).flatMap fun j => (c.memory.read8 c.cpu (start + UInt32.ofNat j)).log := by
  induction count generalizing start with
  | zero => rfl
  | succ count ih =>
      have hnext : ∀ j, start + UInt32.ofNat (j + 1) = start + 1 + UInt32.ofNat j := by
        intro j
        rw [Nat.add_comm, UInt32.ofNat_add, UInt32.add_assoc]
        rfl
      simp only [readBytes, Logged.log_bind, Logged.log_pure, ih, List.range_succ_eq_map,
        List.flatMap_cons, List.flatMap_map, hnext]
      simp

/-- What is told while a byte is read is no row. -/
theorem level_of_mem_log_read8 {m : Memory} {cpu : Cpu} {address : Address} {e : Event}
    (h : e ∈ (m.read8 cpu address).log) : e.level ≠ .info := by
  rw [Memory.read8] at h
  split at h
  · next l _ =>
    rw [Region.read8] at h
    cases hkind : l.region.kind with
    | ram | vram | rom | systemPage => simp [hkind, Logged.quiet] at h
    | stack =>
        simp only [hkind] at h
        split at h
        · simp [Logged.quiet] at h
        · simp only [Logged.noting, List.mem_singleton] at h
          simp [h, Region.stackReadEvent, Event.error]
  · next fault _ =>
    simp only [Logged.noting, List.mem_singleton] at h
    cases fault with
    | unauthorized => simp [h, SoftFault.event, Event.error]
    | outOfRange => simp [h, SoftFault.event, Event.warn]

/-- Reading bytes prints no row. -/
theorem filter_log_readBytes (c : Computer) (count : Nat) (start : Address) :
    (readBytes c count start).log.filter (·.level = .info) = [] := by
  rw [List.filter_eq_nil_iff, log_readBytes]
  intro e he
  obtain ⟨j, -, hj⟩ := List.mem_flatMap.mp he
  simpa using level_of_mem_log_read8 hj

/-- The rows are shown in order, each behind what is told while its bytes are
read. -/
theorem log_memoryRows_rows (c : Computer) (count : Nat) (start : Address) :
    (memoryRows c count start).log =
      (rows c count start).flatMap fun r =>
        (readBytes c r.bytes.length r.address).log ++ [r.event] := by
  induction count using Nat.strongRecOn generalizing start with
  | ind count ih =>
      by_cases hzero : count = 0
      · subst hzero
        rw [memoryRows, rows_zero]
        rfl
      · have hrest := ih (count - 8) (by omega) (start + 8)
        have hlength := length_bytesAt c (min 8 count) start
        rw [rows_of_ne_zero c start hzero, List.flatMap_cons, ← hrest, log_memoryRows c hzero,
          hlength, List.append_assoc]
        rfl

/-! ## Bytes and their addresses -/

/-- The bytes from an address on, each with its own address. -/
def cellsAt (c : Computer) (count : Nat) (start : Address) : List (Address × Byte) :=
  (List.range count).map fun i =>
    (start + UInt32.ofNat i, (c.memory.read8 c.cpu (start + UInt32.ofNat i)).value)

/-- A row shows the cells from its address on. -/
theorem cells_bytesAt (c : Computer) (count : Nat) (start : Address) :
    Row.cells ⟨start, bytesAt c count start⟩ = cellsAt c count start := by
  apply List.ext_getElem
  · simp [Row.cells, cellsAt]
  · intro j _ _
    simp [Row.cells, cellsAt, bytesAt]

/-- Cells are counted one after the other. -/
theorem cellsAt_add (c : Computer) (count more : Nat) (start : Address) :
    cellsAt c (count + more) start =
      cellsAt c count start ++ cellsAt c more (start + UInt32.ofNat count) := by
  simp [cellsAt, List.range_add, Function.comp_def, UInt32.ofNat_add, UInt32.add_assoc]

/-- The rows together hold every byte once, and in order. -/
theorem flatMap_cells_rows (c : Computer) (count : Nat) (start : Address) :
    (rows c count start).flatMap Row.cells = cellsAt c count start := by
  induction count using Nat.strongRecOn generalizing start with
  | ind count ih =>
      by_cases hzero : count = 0
      · subst hzero
        rfl
      · have hrest := ih (count - 8) (by omega) (start + 8)
        rw [rows_of_ne_zero c start hzero, List.flatMap_cons, hrest, cells_bytesAt]
        by_cases hfull : 8 ≤ count
        · have hsplit : count = 8 + (count - 8) := by omega
          have hboth := cellsAt_add c 8 (count - 8) start
          rw [← hsplit] at hboth
          rw [Nat.min_eq_left hfull, hboth]
          rfl
        · have hlast : count - 8 = 0 := by omega
          rw [hlast, Nat.min_eq_right (by omega)]
          simp [cellsAt]

/-- Before the addresses come back to the first one, they are all different. -/
theorem nodup_cellsAt (c : Computer) {count : Nat} (h : count ≤ UInt32.size) (start : Address) :
    ((cellsAt c count start).map Prod.fst).Nodup := by
  rw [cellsAt, List.map_map, List.nodup_map_iff_inj_on List.nodup_range]
  intro i hi j hj hij
  rw [List.mem_range] at hi hj
  have hsame : UInt32.ofNat i = UInt32.ofNat j := (UInt32.add_right_inj start).mp hij
  have hnumber := congrArg UInt32.toNat hsame
  rwa [UInt32.toNat_ofNat_of_lt' (Nat.lt_of_lt_of_le hi h),
    UInt32.toNat_ofNat_of_lt' (Nat.lt_of_lt_of_le hj h)] at hnumber

/-! ## Reading a row -/

/-- Bytes are read back from their text. -/
theorem map_pieces_byteTexts {bytes : List Byte} (h : bytes ≠ []) :
    (pieces ' ' (byteTexts bytes).toList).map (ofDigits 16) = bytes.map UInt8.toNat := by
  have htext : (byteTexts bytes).toList =
      [' '].intercalate (bytes.map fun b => (hexByte b).toList) := by
    simp [byteTexts, String.toList_intercalate, Function.comp_def]
  have hspace : ∀ text ∈ bytes.map fun b => (hexByte b).toList, ' ' ∉ text := by
    intro text hmem
    obtain ⟨b, -, rfl⟩ := List.mem_map.mp hmem
    exact not_mem_padLeft_hex 2 b.toNat
  have hne : (bytes.map fun b => (hexByte b).toList) ≠ [] := mt List.map_eq_nil_iff.mp h
  rw [htext, pieces_intercalate hne hspace, List.map_map]
  simp only [Function.comp_def, hexByte, ofDigits_padLeft_hex]

/-- Reading a text of the form of a row. -/
theorem Row.read_eq {digits : List Char} (h : digits.length = 8) (rest : List Char) :
    Row.read ('0' :: 'x' :: (digits ++ ' ' :: ' ' :: rest)) =
      (ofDigits 16 digits, (pieces ' ' rest).map (ofDigits 16)) := by
  have hdrop : ('0' :: 'x' :: (digits ++ ' ' :: ' ' :: rest)).drop 12 = rest := by
    simp [List.drop_append, h]
  rw [read, hdrop, List.drop_succ_cons, List.drop_succ_cons, List.drop_zero, List.take_left' h]

/-- A row is read back from its text. -/
theorem Row.read_event {r : Row} (h : r.bytes ≠ []) :
    Row.read r.event.message.toList = (r.address.toNat, r.bytes.map UInt8.toNat) := by
  have hbound : r.address.toNat < 16 ^ 8 := Nat.lt_of_lt_of_eq r.address.toNat_lt (by decide)
  have htext : r.event.message.toList =
      '0' :: 'x' :: ((padLeft 8 '0' (hex r.address.toNat)).toList ++
        ' ' :: ' ' :: (byteTexts r.bytes).toList) := by
    simp [event, memoryRow, Event.info, hexAddress]
  rw [htext, Row.read_eq (length_padLeft_hex (by decide) hbound), ofDigits_padLeft_hex,
    map_pieces_byteTexts h]

/-- The bytes of memory from an address on are shown in rows of eight, the last
one maybe shorter.  Row `k` stands behind the address `8 * k` further on and holds
the bytes from there on, and its text says so.  What else is told comes from the
reading of its bytes.  All rows together hold each byte once, under its own
address, where addresses wrap around behind the last one. -/
theorem memoryRows_show_once (c : Computer) (count : Nat) (start : Address) :
    let shown := rows c count start
    let log := (memoryRows c count start).log
    shown.length = (count + 7) / 8 ∧
    (∀ k, (h : k < shown.length) → shown[k].address = start + UInt32.ofNat (8 * k) ∧
      shown[k].bytes = (List.range (min 8 (count - 8 * k))).map fun j =>
        (c.memory.read8 c.cpu (start + UInt32.ofNat (8 * k) + UInt32.ofNat j)).value) ∧
    log = shown.flatMap (fun r => (readBytes c r.bytes.length r.address).log ++ [r.event]) ∧
    log.filter (·.level = .info) = shown.map Row.event ∧
    (∀ r ∈ shown, Row.read r.event.message.toList = (r.address.toNat, r.bytes.map UInt8.toNat)) ∧
    shown.flatMap Row.cells = (List.range count).map (fun i =>
      (start + UInt32.ofNat i, (c.memory.read8 c.cpu (start + UInt32.ofNat i)).value)) ∧
    (count ≤ UInt32.size → ((shown.flatMap Row.cells).map Prod.fst).Nodup) := by
  intro shown log
  have hlog : log = shown.flatMap fun r =>
      (readBytes c r.bytes.length r.address).log ++ [r.event] := log_memoryRows_rows c count start
  have hcells : shown.flatMap Row.cells = cellsAt c count start := flatMap_cells_rows c count start
  refine ⟨length_rows c count start, fun k hk => ?_, hlog, ?_, fun r hr => ?_, hcells,
    fun hcount => ?_⟩
  · have hrow : shown[k] = rowAt c count start k := by simp [shown, rows]
    rw [hrow]
    exact ⟨rfl, rfl⟩
  · have hinfo : ∀ r : Row, r.event.level = .info := fun r => rfl
    rw [hlog, List.filter_flatMap, List.map_eq_flatMap]
    simp [filter_log_readBytes, hinfo]
  · exact Row.read_event (bytes_ne_nil_of_mem_rows c start hr)
  · rw [hcells]
    exact nodup_cellsAt c hcount start

/-- A machine with four bytes of RAM and six of ROM. -/
def tenBytes : Computer :=
  { Computer.ofImage { files := .empty } [] with
    memory := ⟨[.ram 4, .rom [0x01, 7, 0, 0, 0, 0x0b]]⟩ }

/-- Thirteen bytes around the last address: two of no region, all of RAM and of
ROM, and one behind them. -/
theorem memoryRows_show_once_wrapping :
    (∃ h : 1 < (rows tenBytes 13 0xfffffffe).length,
      (rows tenBytes 13 0xfffffffe)[1].address = 6 ∧
      (rows tenBytes 13 0xfffffffe)[1].bytes = [0, 0, 0, 0x0b, 0]) ∧
    (memoryRows tenBytes 13 0xfffffffe).log.filter (·.level = .info) =
      [.info "0xfffffffe  00 00 00 00 00 00 01 07", .info "0x00000006  00 00 00 0b 00"] ∧
    (((rows tenBytes 13 0xfffffffe).flatMap Row.cells).map Prod.fst).Nodup := by
  obtain ⟨-, hrow, -, hinfo, -, -, hnodup⟩ := memoryRows_show_once tenBytes 13 0xfffffffe
  have hsecond : 1 < (rows tenBytes 13 0xfffffffe).length := by decide
  have hevents : (rows tenBytes 13 0xfffffffe).map Row.event =
      [.info "0xfffffffe  00 00 00 00 00 00 01 07", .info "0x00000006  00 00 00 0b 00"] := rfl
  obtain ⟨haddress, hbytes⟩ := hrow 1 hsecond
  exact ⟨⟨hsecond, haddress.trans (by decide), hbytes.trans (by decide)⟩, hinfo.trans hevents,
    hnodup (by decide)⟩

end StackRisc.Debugger
