import StackRisc.Proofs.Computer.Action
import StackRisc.Proofs.Memory.ReadBack

/-!
# StackRisc.Proofs.Memory.Containment

What a write can reach.  A write that is refused or ignored leaves the
machine as it is.  Any other changes one thing only: the addressed bytes of
one region of RAM or VRAM, the program counter, or the carry
(`Memory.WriteEffect`).  The operand stack, the call stack, the accumulators,
and the sizes and permissions of the regions are out of its reach
(`Computer.store_contained`).
-/

namespace StackRisc

/-- The part of a value that a write of a width stores. -/
def Width.kept (width : Width) (v : Word) : Word :=
  match width with
  | .byte => Word.ofByte v.lowByte
  | .word => v

/-- The low byte is kept in both widths. -/
theorem Width.lowByte_kept (width : Width) (v : Word) : (width.kept v).lowByte = v.lowByte := by
  cases width with
  | byte => exact Word.lowByte_ofByte _
  | word => rfl

/-- What the system page cannot change. -/
theorem Cpu.SameOffPage.off_page {cpu cpu' : Cpu} (h : cpu.SameOffPage cpu') :
    cpu'.stack = cpu.stack ∧ cpu'.calls = cpu.calls ∧
    cpu'.registers.narrow = cpu.registers.narrow ∧ cpu'.registers.wide = cpu.registers.wide ∧
    cpu'.width = cpu.width := by
  unfold SameOffPage at h
  rw [h]
  exact ⟨rfl, rfl, rfl, rfl, rfl⟩

/-! ## Writes inside a region -/

/-- Elsewhere in the system page a write changes nothing. -/
theorem SystemPage.store_of_ne (cpu : Cpu) {offset : Nat} (hcounter : offset ≠ 0)
    (hcarry : offset ≠ 4) (v : Word) : (store cpu offset v).value = cpu := by
  unfold store
  split
  · contradiction
  · contradiction
  · rfl
  · rfl

namespace Region

variable {r : Region} {width : Width} {cpu : Cpu} {offset : Nat} {address : Address} {v : Word}

/-- A write to RAM or VRAM changes bytes from its offset on, as many as its
width has. -/
theorem exists_write_eq_withBlock (width : Width) (cpu : Cpu)
    (hkind : r.kind = .ram ∨ r.kind = .vram) :
    ∃ block, (r.write width cpu offset address v).value = .ok (r.withBlock block, cpu) ∧
      block.size = r.block.size ∧
      ∀ i, i < offset ∨ offset + width.bytes ≤ i → block.get? i = r.block.get? i := by
  cases width with
  | byte =>
      refine ⟨r.block.set offset v.lowByte, ?_, Block.size_set _ _ _, fun i hi => ?_⟩
      · rw [write, write8_of_kind hkind]
        rfl
      · have hne : ¬ (offset = i ∧ i < r.block.size) := by
          simp only [Width.bytes] at hi
          omega
        rw [Block.get?_set, if_neg hne]
  | word =>
      refine ⟨(r.block.setWord? offset v).getD r.block, by rw [write, write32_of_kind hkind]; rfl,
        ?_⟩
      unfold Block.setWord?
      split
      · exact ⟨Block.size_setAll _ _ _, fun i hi => Block.get?_setAll_of_not_mem _ _ _ _ hi⟩
      · exact ⟨rfl, fun _ _ => rfl⟩

/-- A write to the system page goes to the registers of the processor. -/
theorem write_systemPage (hkind : r.kind = .systemPage) :
    (r.write width cpu offset address v).value =
      .ok (r, (SystemPage.store cpu offset (width.kept v)).value) := by
  cases width with
  | byte => rw [write, write8, hkind]; rfl
  | word => rw [write, write32, hkind]; rfl

end Region

/-! ## Writes to memory -/

namespace Memory

variable {m m' : Memory} {cpu cpu' : Cpu} {address : Address} {width : Width} {v : Word}

/-- A write to the address is reported and otherwise ignored: no region has
the address, or one that could be written to denies it. -/
def IgnoresWrite (m : Memory) (address : Address) : Prop :=
  (∀ l, ¬ m.Owns address l) ∨
  ∃ l, m.Owns address l ∧ l.region.permissions.write = false ∧ l.region.kind.isReadOnly = false

/-- What becomes of a memory and a processor by a write that is carried out.
Each case changes one thing and leaves all else as it is. -/
inductive WriteEffect (m : Memory) (cpu : Cpu) (width : Width) (address : Address) (v : Word) :
    Memory → Cpu → Prop
  /-- Bytes of RAM or VRAM from the address on, as many as the width has. -/
  | bytes {l block} (howns : m.Owns address l)
      (hkind : l.region.kind = .ram ∨ l.region.kind = .vram)
      (hsize : block.size = l.region.block.size)
      (hothers : ∀ i, i < l.offset ∨ l.offset + width.bytes ≤ i →
        block.get? i = l.region.block.get? i) :
      WriteEffect m cpu width address v (m.withBlock l block) cpu
  /-- The program counter, at the start of the system page. -/
  | counter {l} (howns : m.Owns address l) (hkind : l.region.kind = .systemPage)
      (hoffset : l.offset = 0) :
      WriteEffect m cpu width address v m (cpu.jump (width.kept v).toAddress)
  /-- The carry, at offset 4 of the system page. -/
  | carry {l} (howns : m.Owns address l) (hkind : l.region.kind = .systemPage)
      (hoffset : l.offset = 4) :
      WriteEffect m cpu width address v m
        { cpu with registers := { cpu.registers with carry := (width.kept v).lowByte } }
  /-- Nothing, anywhere else in the system page. -/
  | nothing {l} (howns : m.Owns address l) (hkind : l.region.kind = .systemPage)
      (hoffset : l.offset ≠ 0 ∧ l.offset ≠ 4) :
      WriteEffect m cpu width address v m cpu

/-- Where writes are ignored, nothing changes. -/
theorem write_of_ignoresWrite (h : m.IgnoresWrite address) :
    (m.write width cpu address v).value = .ok (m, cpu) := by
  rcases h with hnone | ⟨l, hl, hdenied, hkind⟩
  · exact write_of_not_owned hnone
  · rw [write_of_owns hl, hdenied, hkind]
    rfl

theorem put_self {l : Location} (h : m.Owns address l) (cpu : Cpu) :
    m.put l.index (.ok (l.region, cpu)) = .ok (m, cpu) :=
  congrArg (fun m => Except.ok (m, cpu)) (withBlock_self h.region)

/-- What lets a write at an owned address be carried out. -/
theorem granted_of_write {l : Location} (hl : m.Owns address l)
    (h : (m.write width cpu address v).value = .ok (m', cpu')) (hnot : ¬ m.IgnoresWrite address) :
    l.region.kind.isReadOnly = false ∧ l.region.permissions.write = true ∧
      ¬ (width = .word ∧ l.region.size < l.offset + 4) := by
  have hrefuses : ¬ m.Refuses width address := by
    intro href
    obtain ⟨fault, hfault⟩ := write_eq_error_iff.mpr href
    rw [hfault] at h
    contradiction
  have hkind : l.region.kind.isReadOnly = false := by
    rw [← Bool.not_eq_true]
    exact fun hreadOnly => hrefuses (.inl ((guards_iff_of_owns hl).mpr hreadOnly))
  have hgranted : l.region.permissions.write = true := by
    rw [← Bool.not_eq_false]
    exact fun hdenied => hnot (.inr ⟨l, hl, hdenied, hkind⟩)
  exact ⟨hkind, hgranted, fun ⟨hwidth, hover⟩ =>
    hrefuses (.inr ⟨hwidth, (overruns_iff_of_owns hl).mpr ⟨hgranted, hover⟩⟩)⟩

/-- A write that is carried out has one of the effects of a write. -/
theorem writeEffect_of_write (h : (m.write width cpu address v).value = .ok (m', cpu'))
    (hnot : ¬ m.IgnoresWrite address) : WriteEffect m cpu width address v m' cpu' := by
  obtain ⟨l, hl⟩ : ∃ l, m.Owns address l := by
    by_contra hnone
    exact hnot (.inl fun l hl => hnone ⟨l, hl⟩)
  obtain ⟨hkind, hgranted, hspan⟩ := granted_of_write hl h hnot
  rw [write_of_owns hl, if_pos hgranted, if_neg hspan] at h
  cases hk : l.region.kind with
  | ram | vram =>
      have hbytes : l.region.kind = .ram ∨ l.region.kind = .vram := by simp [hk]
      obtain ⟨block, hvalue, hsize, hothers⟩ :=
        Region.exists_write_eq_withBlock width cpu hbytes
      rw [hvalue] at h
      obtain ⟨rfl, rfl⟩ := Prod.mk.inj (Except.ok.inj h)
      exact .bytes hl hbytes hsize hothers
  | systemPage =>
      rw [Region.write_systemPage hk, put_self hl] at h
      obtain ⟨rfl, rfl⟩ := Prod.mk.inj (Except.ok.inj h)
      by_cases hcounter : l.offset = 0
      · rw [hcounter]
        exact .counter hl hk hcounter
      · by_cases hcarry : l.offset = 4
        · rw [hcarry]
          exact .carry hl hk hcarry
        · rw [SystemPage.store_of_ne cpu hcounter hcarry]
          exact .nothing hl hk ⟨hcounter, hcarry⟩
  | stack | rom =>
      rw [hk] at hkind
      contradiction

end Memory

/-! ## Writes of the machine -/

namespace Computer

/-- A write to the stack view or the ROM is refused whatever they grant.  A
refused or ignored write leaves the machine as it is, and any other has one of
the effects of a write.  Both stacks, the accumulators, the width and what the
address map says of its regions stay what they are. -/
theorem store_contained (c : Computer) (width : Width) (address : Address) (v : Word) :
    let stored := (Action.store width address v).run c
    (c.memory.Guards address → ∃ fault, stored.result = .error fault) ∧
    ((∃ fault, stored.result = .error fault) → stored.computer = c) ∧
    (c.memory.IgnoresWrite address → stored.result = .ok () ∧ stored.computer = c) ∧
    (stored.result = .ok () → ¬ c.memory.IgnoresWrite address →
      ∃ memory cpu, stored.computer = { c with memory, cpu } ∧
        c.memory.WriteEffect c.cpu width address v memory cpu) ∧
    stored.computer.cpu.stack = c.cpu.stack ∧ stored.computer.cpu.calls = c.cpu.calls ∧
    stored.computer.cpu.registers.narrow = c.cpu.registers.narrow ∧
    stored.computer.cpu.registers.wide = c.cpu.registers.wide ∧
    stored.computer.cpu.width = c.cpu.width ∧
    stored.computer.memory.regions.map Region.shape = c.memory.regions.map Region.shape := by
  intro stored
  rcases c.memory.write_cases width c.cpu address v with
    ⟨-, cause, herror⟩ | ⟨hnot, memory, cpu, hok, hmap, hcpu⟩
  · obtain ⟨hresult, hcomputer⟩ : stored.result = .error (.exception (.memory cause)) ∧
        stored.computer = c := Action.ends_store_error.mpr ⟨⟨cause, herror, rfl⟩, rfl⟩
    have hnotIgnored : ¬ c.memory.IgnoresWrite address := by
      intro hignored
      rw [Memory.write_of_ignoresWrite hignored] at herror
      contradiction
    refine ⟨fun _ => ⟨_, hresult⟩, fun _ => hcomputer, fun h => absurd h hnotIgnored,
      fun h => ?_, ?_⟩
    · rw [hresult] at h
      contradiction
    · rw [hcomputer]
      exact ⟨rfl, rfl, rfl, rfl, rfl, rfl⟩
  · obtain ⟨hresult, hcomputer⟩ : stored.result = .ok () ∧
        stored.computer = { c with memory, cpu } := Action.ends_store_ok.mpr ⟨_, _, hok, rfl⟩
    refine ⟨fun hguards => absurd (.inl hguards) hnot, fun ⟨fault, h⟩ => ?_, fun hignored => ?_,
      fun _ hnotIgnored =>
        ⟨memory, cpu, hcomputer, Memory.writeEffect_of_write hok hnotIgnored⟩, ?_⟩
    · rw [hresult] at h
      contradiction
    · rw [Memory.write_of_ignoresWrite hignored] at hok
      obtain ⟨rfl, rfl⟩ := Prod.mk.inj (Except.ok.inj hok)
      exact ⟨hresult, hcomputer⟩
    · obtain ⟨hstack, hcalls, hnarrow, hwide, hwidth⟩ := hcpu.off_page
      rw [hcomputer]
      exact ⟨hstack, hcalls, hnarrow, hwide, hwidth, hmap.shapes_eq⟩

end Computer

end StackRisc
