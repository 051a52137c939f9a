import StackRisc.Proofs.Memory.SameMap

/-!
# StackRisc.Proofs.Memory.Access

When an access is refused, and what a write that is carried out can change.

* `Memory.read32_eq_error_iff`, `Memory.write_eq_error_iff` — an access is
  refused exactly in the stack view and the ROM, or where a word runs over
  the end of its region;
* `Memory.sameMap_of_write` — a write that is carried out changes at most
  bytes of RAM and VRAM, and what the system page lets it change.
-/

namespace StackRisc

/-! ## The system page -/

/-- The processors differ at most in what can be changed through the system
page: the program counter and the carry. -/
def Cpu.SameOffPage (cpu cpu' : Cpu) : Prop :=
  cpu' = { cpu with
    registers := { cpu.registers with
      pc := cpu'.registers.pc, carry := cpu'.registers.carry } }

namespace Cpu.SameOffPage

variable {cpu cpu' cpu'' : Cpu}

theorem refl (cpu : Cpu) : cpu.SameOffPage cpu := rfl

theorem trans (h : cpu.SameOffPage cpu') (h' : cpu'.SameOffPage cpu'') :
    cpu.SameOffPage cpu'' := by
  unfold SameOffPage at *
  rw [h', h]

end Cpu.SameOffPage

/-- A store in the system page touches its registers alone. -/
theorem SystemPage.sameOffPage_store (cpu : Cpu) (offset : Nat) (v : Word) :
    cpu.SameOffPage (store cpu offset v).value := by
  unfold store
  split <;> rfl

/-! ## Writes inside a region -/

namespace Region

variable {r : Region}

/-- A region with another buffer of the same size is alike. -/
theorem alike_of_block (hkind : r.kind = .ram ∨ r.kind = .vram) {block : Block}
    (hsize : block.size = r.block.size) : r.Alike { r with block } where
  shape := rfl
  size_block := hsize
  block hram hvram := (hkind.elim hram hvram).elim

/-- Write a value of a width inside a region; of a byte the low one is kept. -/
def write (r : Region) (width : Width) (cpu : Cpu) (offset : Nat) (address : Address) (v : Word) :
    Logged (Except MemoryFault (Region × Cpu)) :=
  match width with
  | .byte => r.write8 cpu offset address v.lowByte
  | .word => r.write32 cpu offset address v

/-- A write inside the stack view or the ROM is refused, any other changes
only bytes of RAM and VRAM and what the system page lets it change. -/
theorem write_cases (r : Region) (width : Width) (cpu : Cpu) (offset : Nat) (address : Address)
    (v : Word) :
    (r.kind.isReadOnly = true ∧
      (r.write width cpu offset address v).value = .error (.readOnly r.kind address)) ∨
    (r.kind.isReadOnly = false ∧ ∃ r' cpu',
      (r.write width cpu offset address v).value = .ok (r', cpu') ∧ r.Alike r' ∧
        cpu.SameOffPage cpu') := by
  have hsize : ((r.block.setWord? offset v).getD r.block).size = r.block.size := by
    unfold Block.setWord?
    split <;> simp
  cases hkind : r.kind with
  | ram | vram =>
      refine .inr ⟨rfl, ?_⟩
      cases width with
      | byte =>
          refine ⟨_, cpu, ?_, alike_of_block (by simp [hkind]) (Block.size_set _ offset v.lowByte),
            .refl cpu⟩
          rw [write, write8, hkind]
          rfl
      | word =>
          refine ⟨_, cpu, ?_, alike_of_block (by simp [hkind]) hsize, .refl cpu⟩
          rw [write, write32, hkind]
          rfl
  | systemPage =>
      refine .inr ⟨rfl, r, ?_⟩
      cases width with
      | byte =>
          refine ⟨_, ?_, .refl r, SystemPage.sameOffPage_store cpu offset (Word.ofByte v.lowByte)⟩
          rw [write, write8, hkind]
          rfl
      | word =>
          refine ⟨_, ?_, .refl r, SystemPage.sameOffPage_store cpu offset v⟩
          rw [write, write32, hkind]
          rfl
  | stack | rom =>
      refine .inl ⟨rfl, ?_⟩
      cases width with
      | byte => rw [write, write8, hkind]; rfl
      | word => rw [write, write32, hkind]; rfl

end Region

/-! ## Refused accesses -/

namespace Memory

variable {m m' : Memory} {cpu cpu' : Cpu} {address : Address} {access : Access} {l : Location}
  {width : Width} {v : Word}

/-- The address lies in a region that is read-only by its kind: the stack
view or the ROM. -/
def Guards (m : Memory) (address : Address) : Prop :=
  ∃ l, m.Owns address l ∧ l.region.kind.isReadOnly = true

/-- A word at the address starts in a region that grants the access and runs
over the end of that region. -/
def Overruns (m : Memory) (access : Access) (address : Address) : Prop :=
  ∃ l, m.Owns address l ∧ access.grantedBy l.region.permissions = true ∧
    l.region.size < l.offset + 4

theorem SameMap.guards (h : m.SameMap m') (hg : m.Guards address) : m'.Guards address := by
  obtain ⟨l, hl, hkind⟩ := hg
  obtain ⟨l', hl', halike⟩ := h.exists_owns hl
  exact ⟨l', hl', by rw [halike.kind_eq]; exact hkind⟩

/-- What is guarded depends on the map alone. -/
theorem SameMap.guards_iff (h : m.SameMap m') : m'.Guards address ↔ m.Guards address :=
  ⟨h.symm.guards, h.guards⟩

/-- An address is guarded exactly if its region is read-only. -/
theorem guards_iff_of_owns (h : m.Owns address l) :
    m.Guards address ↔ l.region.kind.isReadOnly = true :=
  ⟨fun ⟨_, hl', hkind⟩ => h.unique hl' ▸ hkind, fun hkind => ⟨l, h, hkind⟩⟩

/-- A word overruns its region exactly if less than four bytes are left. -/
theorem overruns_iff_of_owns (h : m.Owns address l) :
    m.Overruns access address ↔
      access.grantedBy l.region.permissions = true ∧ l.region.size < l.offset + 4 :=
  ⟨fun ⟨_, hl', hspan⟩ => h.unique hl' ▸ hspan, fun hspan => ⟨l, h, hspan⟩⟩

/-- Reading a word is refused exactly where it runs over the end of a
readable region. -/
theorem read32_eq_error_iff (cpu : Cpu) :
    (∃ fault, (m.read32 cpu address).value = .error fault) ↔ m.Overruns .read address := by
  by_cases h : ∃ l, m.Owns address l
  · obtain ⟨l, hl⟩ := h
    rw [overruns_iff_of_owns hl, read32, locate_of_owns hl]
    by_cases hgranted : Access.read.grantedBy l.region.permissions = true
    · by_cases hspan : l.offset + 4 ≤ l.region.size
      · simp [hgranted, spanFits, hspan, Nat.not_lt.mpr hspan]
      · simp [hgranted, spanFits, hspan, Nat.not_le.mp hspan, Logged.quiet]
    · simp [hgranted, Logged.noting]
  · have hnone : ∀ l, ¬ m.Owns address l := fun l hl => h ⟨l, hl⟩
    simp [read32, locate_of_not_owned hnone, Logged.noting, Overruns, hnone]

/-! ## Writes -/

/-- Write a value of a width; of a byte the low one is kept. -/
def write (m : Memory) (width : Width) (cpu : Cpu) (address : Address) (v : Word) :
    Logged (Except MemoryFault (Memory × Cpu)) :=
  match width with
  | .byte => m.write8 cpu address v.lowByte
  | .word => m.write32 cpu address v

/-- A write of a width is refused at the address. -/
def Refuses (m : Memory) (width : Width) (address : Address) : Prop :=
  m.Guards address ∨ width = .word ∧ m.Overruns .write address

/-- A write to an address of no region is ignored. -/
theorem write_of_not_owned (h : ∀ l, ¬ m.Owns address l) :
    (m.write width cpu address v).value = .ok (m, cpu) := by
  cases width <;> simp [write, write8, write32, writeTarget, locate_of_not_owned h, Logged.noting]

/-- What becomes of a write to an address with an owner. -/
theorem write_of_owns (h : m.Owns address l) :
    (m.write width cpu address v).value =
      if l.region.permissions.write then
        if width = .word ∧ l.region.size < l.offset + 4 then
          .error (.spanOutOfBounds l.region.kind address)
        else m.put l.index (l.region.write width cpu l.offset address v).value
      else if l.region.kind.isReadOnly then .error (.readOnly l.region.kind address)
      else .ok (m, cpu) := by
  have htarget : m.writeTarget address =
      if l.region.permissions.write then .at l
      else if l.region.kind.isReadOnly then .refused (.readOnly l.region.kind address)
      else .ignored (.unauthorized l.region.kind .write address) := by
    rw [writeTarget, locate_of_owns h]
    by_cases hgranted : l.region.permissions.write <;> simp [Access.grantedBy, hgranted]
  by_cases hgranted : l.region.permissions.write
  · cases width with
    | byte => simp [write, write8, htarget, hgranted, Region.write]
    | word =>
        by_cases hspan : l.offset + 4 ≤ l.region.size
        · simp [write, write32, htarget, hgranted, Region.write, spanFits, hspan,
            Nat.not_lt.mpr hspan]
        · simp [write, write32, htarget, hgranted, spanFits, hspan, Nat.not_le.mp hspan,
            Logged.quiet]
  · by_cases hkind : l.region.kind.isReadOnly
    · cases width <;> simp [write, write8, write32, htarget, hgranted, hkind, Logged.quiet]
    · cases width <;> simp [write, write8, write32, htarget, hgranted, hkind, Logged.noting]

/-- A write is refused, or it changes only bytes of RAM and VRAM and what the
system page lets it change. -/
theorem write_cases (m : Memory) (width : Width) (cpu : Cpu) (address : Address) (v : Word) :
    (m.Refuses width address ∧ ∃ fault, (m.write width cpu address v).value = .error fault) ∨
    (¬ m.Refuses width address ∧ ∃ m' cpu', (m.write width cpu address v).value = .ok (m', cpu') ∧
      m.SameMap m' ∧ cpu.SameOffPage cpu') := by
  by_cases h : ∃ l, m.Owns address l
  · -- A region may grant a write that its kind forbids, so the kind matters in both cases.
    obtain ⟨l, hl⟩ := h
    rw [write_of_owns hl, Refuses, guards_iff_of_owns hl, overruns_iff_of_owns hl]
    by_cases hgranted : l.region.permissions.write = true
    · by_cases hspan : width = .word ∧ l.region.size < l.offset + 4
      · exact .inl ⟨.inr ⟨hspan.1, hgranted, hspan.2⟩, by simp [hgranted, hspan]⟩
      · rw [if_pos hgranted, if_neg hspan]
        rcases l.region.write_cases width cpu l.offset address v with
          ⟨hkind, hvalue⟩ | ⟨hkind, r', cpu', hvalue, halike, hcpu⟩
        · exact .inl ⟨.inl hkind, _, by rw [hvalue]; rfl⟩
        · refine .inr ⟨?_, _, cpu', by rw [hvalue]; rfl, sameMap_set hl.region halike, hcpu⟩
          rintro (hreadOnly | ⟨hwidth, -, hover⟩)
          · rw [hkind] at hreadOnly
            contradiction
          · exact hspan ⟨hwidth, hover⟩
    · rw [if_neg hgranted]
      by_cases hkind : l.region.kind.isReadOnly = true
      · exact .inl ⟨.inl hkind, _, if_pos hkind⟩
      · refine .inr ⟨?_, m, cpu, if_neg hkind, .refl m, .refl cpu⟩
        rintro (hreadOnly | ⟨-, hwrite, -⟩)
        · exact hkind hreadOnly
        · exact hgranted hwrite
  · have hnone : ∀ l, ¬ m.Owns address l := fun l hl => h ⟨l, hl⟩
    refine .inr ⟨?_, m, cpu, write_of_not_owned hnone, .refl m, .refl cpu⟩
    rintro (⟨l, hl, -⟩ | ⟨-, l, hl, -⟩)
    · exact hnone l hl
    · exact hnone l hl

/-- A write is refused exactly in the stack view and the ROM, or where a word
runs over the end of a writable region. -/
theorem write_eq_error_iff :
    (∃ fault, (m.write width cpu address v).value = .error fault) ↔ m.Refuses width address := by
  rcases m.write_cases width cpu address v with ⟨href, fault, hfault⟩ | ⟨hnot, m', cpu', hok, -⟩
  · exact ⟨fun _ => href, fun _ => ⟨fault, hfault⟩⟩
  · simp [hok, hnot]

/-- A write that is carried out leaves the address map as it is. -/
theorem sameMap_of_write (h : (m.write width cpu address v).value = .ok (m', cpu')) :
    m.SameMap m' ∧ cpu.SameOffPage cpu' := by
  rcases m.write_cases width cpu address v with ⟨-, fault, hfault⟩ | ⟨-, m₁, cpu₁, hok, hmap, hcpu⟩
  · rw [hfault] at h
    contradiction
  · obtain ⟨rfl, rfl⟩ := Prod.mk.inj (Except.ok.inj (hok.symm.trans h))
    exact ⟨hmap, hcpu⟩

end Memory

end StackRisc
