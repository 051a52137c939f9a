import Mathlib.Data.List.Forall2
import StackRisc.Proofs.Memory.Owner

/-!
# StackRisc.Proofs.Memory.SameMap

Address maps that differ at most in the bytes of RAM and VRAM, which is all
that a write can change (`Memory.sameMap_of_write`).  Such maps have

* the same kinds, sizes and permissions, in order (`SameMap.shapes_eq`);
* the same owner of every address (`SameMap.exists_owns`);
* the same bytes in the system page, the stack view and the ROM
  (`SameMap.read8_eq`, `SameMap.read32_eq`);
* the same program origin (`SameMap.origin_eq`);
* the same system page, stack view and ROM (`SameMap.region?_eq`).
-/

namespace StackRisc

/-! ## Alike regions -/

/-- What the address map says of a region. -/
def Region.shape (r : Region) : RegionKind × Nat × Permissions := (r.kind, r.size, r.permissions)

/-- The regions differ at most in the bytes of RAM or VRAM. -/
structure Region.Alike (r r' : Region) : Prop where
  shape : r'.shape = r.shape
  size_block : r'.block.size = r.block.size
  block : r.kind ≠ .ram → r.kind ≠ .vram → r'.block = r.block

namespace Region.Alike

variable {r r' r'' : Region}

theorem refl (r : Region) : r.Alike r := ⟨rfl, rfl, fun _ _ => rfl⟩

theorem kind_eq (h : r.Alike r') : r'.kind = r.kind := congrArg Prod.fst h.shape

theorem size_eq (h : r.Alike r') : r'.size = r.size := congrArg (·.2.1) h.shape

theorem permissions_eq (h : r.Alike r') : r'.permissions = r.permissions :=
  congrArg (·.2.2) h.shape

/-- Alike goes both ways. -/
theorem symm (h : r.Alike r') : r'.Alike r where
  shape := h.shape.symm
  size_block := h.size_block.symm
  block hram hvram := (h.block (h.kind_eq ▸ hram) (h.kind_eq ▸ hvram)).symm

/-- Regions stay alike step by step. -/
theorem trans (h : r.Alike r') (h' : r'.Alike r'') : r.Alike r'' where
  shape := h'.shape.trans h.shape
  size_block := h'.size_block.trans h.size_block
  block hram hvram :=
    (h'.block (h.kind_eq ▸ hram) (h.kind_eq ▸ hvram)).trans (h.block hram hvram)

/-- System pages, stack views and ROMs are alike only if they are the same. -/
theorem eq_of_kind (h : r.Alike r') (hram : r.kind ≠ .ram) (hvram : r.kind ≠ .vram) : r' = r := by
  obtain ⟨kind, size, permissions, block⟩ := r
  obtain ⟨kind', size', permissions', block'⟩ := r'
  obtain ⟨rfl, rfl, rfl⟩ : kind' = kind ∧ size' = size ∧ permissions' = permissions :=
    ⟨h.kind_eq, h.size_eq, h.permissions_eq⟩
  exact congrArg _ (h.block hram hvram)

end Region.Alike

/-! ## Lists of alike regions -/

namespace Region

variable {rs rs' rs'' : List Region} {r r' : Region} {i : Nat} {kind : RegionKind}

theorem forall₂_alike_trans (h : List.Forall₂ Alike rs rs') (h' : List.Forall₂ Alike rs' rs'') :
    List.Forall₂ Alike rs rs'' := by
  induction h generalizing rs'' with
  | nil => exact h'
  | cons hr _ ih =>
      cases h' with
      | cons hr' hrest => exact .cons (hr.trans hr') (ih hrest)

/-- Every region is alike to the one in its place. -/
theorem exists_alike_of_getElem? (h : List.Forall₂ Alike rs rs') (hr : rs[i]? = some r) :
    ∃ r', rs'[i]? = some r' ∧ r.Alike r' := by
  induction h generalizing i with
  | nil => simp at hr
  | cons hab _ ih =>
      cases i with
      | zero => exact ⟨_, rfl, Option.some.inj hr ▸ hab⟩
      | succ i => exact ih hr

/-- Putting an alike region in the place of a region. -/
theorem forall₂_alike_set (hr : rs[i]? = some r) (h : r.Alike r') :
    List.Forall₂ Alike rs (rs.set i r') := by
  induction rs generalizing i with
  | nil => exact .nil
  | cons q rest ih =>
      cases i with
      | zero => exact .cons (Option.some.inj hr ▸ h) (List.forall₂_same.mpr fun q _ => .refl q)
      | succ i => exact .cons (.refl q) (ih hr)

/-- Regions that are alike start at the same addresses. -/
theorem startOf?_eq_of_alike (h : List.Forall₂ Alike rs rs') (start : Nat) :
    Memory.startOf? kind start rs' = Memory.startOf? kind start rs := by
  induction h generalizing start with
  | nil => rfl
  | cons hr _ ih => rw [Memory.startOf?, Memory.startOf?, hr.kind_eq, hr.size_eq, ih]

/-- A region other than the two memories is the same in both. -/
theorem find?_eq_of_alike (h : List.Forall₂ Alike rs rs') (hram : kind ≠ .ram)
    (hvram : kind ≠ .vram) : rs'.find? (·.kind == kind) = rs.find? (·.kind == kind) := by
  induction h with
  | nil => rfl
  | @cons r r' _ _ hr _ ih =>
      rw [List.find?_cons, List.find?_cons, hr.kind_eq, ih]
      by_cases hkind : r.kind = kind
      · rw [hr.eq_of_kind (hkind ▸ hram) (hkind ▸ hvram)]
      · rw [beq_false_of_ne hkind]

end Region

/-! ## Agreeing maps -/

/-- The address maps differ at most in the bytes of RAM and VRAM. -/
def Memory.SameMap (m m' : Memory) : Prop := List.Forall₂ Region.Alike m.regions m'.regions

namespace Memory

variable {m m' m'' : Memory} {address : Address} {l : Location}

/-- Putting back a region with other bytes. -/
theorem sameMap_set {i : Nat} {r r' : Region} (hr : m.regions[i]? = some r) (h : r.Alike r') :
    m.SameMap ⟨m.regions.set i r'⟩ :=
  Region.forall₂_alike_set hr h

namespace SameMap

theorem refl (m : Memory) : m.SameMap m := List.forall₂_same.mpr fun r _ => .refl r

/-- Two memories have the same map in either order. -/
theorem symm (h : m.SameMap m') : m'.SameMap m :=
  (List.Forall₂.imp (fun _ _ h => h.symm) h).flip

/-- The map is kept step by step. -/
theorem trans (h : m.SameMap m') (h' : m'.SameMap m'') : m.SameMap m'' :=
  Region.forall₂_alike_trans h h'

/-- Agreeing maps have the same kinds, sizes and permissions, in order. -/
theorem shapes_eq (h : m.SameMap m') :
    m'.regions.map Region.shape = m.regions.map Region.shape := by
  have hrel : List.Forall₂ (· = ·) (m'.regions.map Region.shape) (m.regions.map Region.shape) := by
    rw [List.forall₂_map_left_iff, List.forall₂_map_right_iff]
    exact h.symm.imp fun _ _ hr => hr.shape.symm
  rwa [List.forall₂_eq_eq_eq] at hrel

theorem start_eq (h : m.SameMap m') (i : Nat) : m'.start i = m.start i := by
  have hsizes : m'.regions.map Region.size = m.regions.map Region.size := by
    have := congrArg (List.map (·.2.1)) h.shapes_eq
    rwa [List.map_map, List.map_map] at this
  simp only [start, List.map_take, hsizes]

/-- An address has the same owner, up to the bytes of RAM and VRAM. -/
theorem exists_owns (h : m.SameMap m') (hl : m.Owns address l) :
    ∃ l', m'.Owns address l' ∧ l.region.Alike l'.region := by
  obtain ⟨r', hr', halike⟩ := Region.exists_alike_of_getElem? h hl.region
  refine ⟨⟨l.index, r', l.offset⟩, ⟨hr', ?_, ?_⟩, halike⟩
  · rw [h.start_eq]
    exact hl.position
  · rw [halike.size_eq]
    exact hl.inside

/-- An access to a system page, stack view or ROM lands where it does. -/
theorem locate_eq {access : Access} (h : m.SameMap m') (hl : m.locate address access = .ok l)
    (hram : l.region.kind ≠ .ram) (hvram : l.region.kind ≠ .vram) :
    m'.locate address access = .ok l := by
  obtain ⟨howns, hgranted⟩ := locate_eq_ok_iff.mp hl
  obtain ⟨r', hr', halike⟩ := Region.exists_alike_of_getElem? h howns.region
  rw [halike.eq_of_kind hram hvram] at hr'
  refine locate_eq_ok_iff.mpr ⟨⟨hr', ?_, howns.inside⟩, hgranted⟩
  rw [h.start_eq]
  exact howns.position

section

variable (h : m.SameMap m') (hl : m.locate address .read = .ok l)
  (hram : l.region.kind ≠ .ram) (hvram : l.region.kind ≠ .vram) (cpu : Cpu)
include h hl hram hvram

/-- A byte outside RAM and VRAM is read as before. -/
theorem read8_eq : m'.read8 cpu address = m.read8 cpu address := by
  rw [read8, read8, h.locate_eq hl hram hvram, hl]

/-- So is a word. -/
theorem read32_eq : m'.read32 cpu address = m.read32 cpu address := by
  rw [read32, read32, h.locate_eq hl hram hvram, hl]

end

/-- The program starts at the same address. -/
theorem origin_eq (h : m.SameMap m') : m'.origin = m.origin := by
  rw [origin, origin, baseOf?, baseOf?, Region.startOf?_eq_of_alike h]

/-- Agreeing maps have the same system page, stack view and ROM. -/
theorem region?_eq (h : m.SameMap m') {kind : RegionKind} (hram : kind ≠ .ram)
    (hvram : kind ≠ .vram) : m'.region? kind = m.region? kind :=
  Region.find?_eq_of_alike h hram hvram

end SameMap

end Memory

end StackRisc
