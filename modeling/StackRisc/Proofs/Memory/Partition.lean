import Mathlib.Logic.ExistsUnique
import StackRisc.Proofs.Memory.Owner

/-!
# StackRisc.Proofs.Memory.Partition

The address map as a partition: the regions take the addresses below its end
among themselves, each of them a stretch.  An access goes by the region of its
address, and the base of a kind by the first region of that kind; both add up
the same sizes.

* `exists_owns_iff` — the addresses below the end of the map have an owner;
* `startOf?_eq` — a kind starts where its first region does;
* `locate_partition` — where every access lands, and what is at a base.
-/

namespace StackRisc.Memory

variable {m : Memory} {address base : Address} {access : Access} {kind : RegionKind}

/-- Number of addresses that the regions take together. -/
def extent (m : Memory) : Nat := (m.regions.map Region.size).sum

/-! ## Stretches -/

/-- Every region ends within the extent of memory. -/
theorem start_add_size_le_extent {i : Nat} {r : Region} (h : m.regions[i]? = some r) :
    m.start i + r.size ≤ m.extent := by
  have hend : m.start m.regions.length = m.extent := by rw [start, List.take_length, extent]
  rw [← hend]
  exact start_add_size_le h (List.getElem?_eq_some_iff.mp h).1

/-- An address within the stretch of a region belongs to that region. -/
theorem owns_of_within {i : Nat} {r : Region} (hr : m.regions[i]? = some r)
    (hlow : m.start i ≤ address.toNat) (hhigh : address.toNat < m.start i + r.size) :
    m.Owns address ⟨i, r, address.toNat - m.start i⟩ where
  region := hr
  position := by dsimp only; omega
  inside := by dsimp only; omega

/-- Exactly the addresses below the end of the map have an owner. -/
theorem exists_owns_iff : (∃ l, m.Owns address l) ↔ address.toNat < m.extent := by
  constructor
  · rintro ⟨l, hl⟩
    have hle := start_add_size_le_extent hl.region
    have hposition := hl.position
    have hinside := hl.inside
    omega
  · intro hlt
    obtain ⟨i, r, offset, hr, hposition, hoffset⟩ :=
      exists_getElem?_of_lt (Nat.zero_le _) (by rw [Nat.zero_add]; exact hlt)
    rw [Nat.zero_add] at hposition
    exact ⟨⟨i, r, offset⟩, hr, hposition, hoffset⟩

/-! ## Bases -/

/-- A kind starts where the first region of that kind does. -/
theorem startOf?_eq (kind : RegionKind) (start : Nat) (regions : List Region) :
    startOf? kind start regions =
      (regions.findIdx? fun r => r.kind = kind).map fun i =>
        start + ((regions.take i).map Region.size).sum := by
  induction regions generalizing start with
  | nil => rfl
  | cons r rest ih =>
      rw [startOf?, List.findIdx?_cons]
      by_cases hkind : r.kind = kind
      · simp [hkind]
      · simp [hkind, ih, Nat.add_assoc, Function.comp_def]

/-- The base of a kind is the start of its first region. -/
theorem exists_of_baseOf? (h : m.baseOf? kind = some base) :
    ∃ i r, (m.regions.findIdx? fun r => r.kind = kind) = some i ∧ m.regions[i]? = some r ∧
      base.toNat = m.start i := by
  rw [baseOf?, startOf?_eq] at h
  cases hfirst : m.regions.findIdx? fun r => r.kind = kind with
  | none => simp [hfirst] at h
  | some i =>
      simp only [hfirst, Option.map_some, Nat.zero_add] at h
      split at h
      · next hlt =>
        obtain ⟨hi, -⟩ := List.findIdx?_eq_some_iff_getElem.mp hfirst
        refine ⟨i, _, rfl, List.getElem?_eq_getElem hi, ?_⟩
        rw [← Option.some.inj h]
        exact UInt32.toNat_ofNat_of_lt' hlt
      · contradiction

/-! ## The partition -/

/-- Whatever regions there are, in whatever order and of whatever sizes, they
part the addresses below their end.  Each such address lies in the stretch of
exactly one region, and an access lands there, as far from the start as the
address is, or is denied in the name of that region; any other address is out
of range.  Where a kind has a base, the addresses from there on are those of
the first region of that kind. -/
theorem locate_partition (m : Memory) (a : Address) (access : Access) :
    (a.toNat < m.extent ↔ ∃! i, ∃ r, m.regions[i]? = some r ∧
      m.start i ≤ a.toNat ∧ a.toNat < m.start i + r.size) ∧
    (∀ i r, m.regions[i]? = some r → m.start i ≤ a.toNat → a.toNat < m.start i + r.size →
      m.locate a access =
        if access.grantedBy r.permissions then .ok ⟨i, r, a.toNat - m.start i⟩
        else .error (.unauthorized r.kind access a)) ∧
    (m.locate a access = .error (.outOfRange access a) ↔ m.extent ≤ a.toNat) ∧
    ∀ kind base, m.baseOf? kind = some base →
      ∃ i r, (m.regions.findIdx? fun r => r.kind = kind) = some i ∧ m.regions[i]? = some r ∧
        base.toNat = m.start i ∧
        ∀ o < r.size, base.toNat + o < UInt32.size →
          m.locate (base + UInt32.ofNat o) access =
            if access.grantedBy r.permissions then .ok ⟨i, r, o⟩
            else .error (.unauthorized r.kind access (base + UInt32.ofNat o)) := by
  refine ⟨⟨fun hlt => ?_, ?_⟩, fun i r hr hlow hhigh => ?_, ⟨fun hrange => ?_, fun hle => ?_⟩,
    fun kind base hbase => ?_⟩
  · obtain ⟨⟨i, r, offset⟩, howns⟩ := exists_owns_iff.mpr hlt
    have hposition : a.toNat = m.start i + offset := howns.position
    have hinside : offset < r.size := howns.inside
    refine ⟨i, ⟨r, howns.region, by omega, by omega⟩, ?_⟩
    rintro j ⟨q, hq, hlow, hhigh⟩
    exact congrArg Location.index ((owns_of_within hq hlow hhigh).unique howns)
  · rintro ⟨i, ⟨r, hr, hlow, hhigh⟩, -⟩
    exact exists_owns_iff.mp ⟨_, owns_of_within hr hlow hhigh⟩
  · exact locate_of_owns (owns_of_within hr hlow hhigh)
  · -- An address with an owner is found, or denied in the name of its owner.
    refine Nat.not_lt.mp fun hlt => ?_
    obtain ⟨l, hl⟩ := exists_owns_iff.mpr hlt
    rw [locate_of_owns hl] at hrange
    split at hrange <;> cases hrange
  · exact locate_of_not_owned fun l hl => Nat.not_lt.mpr hle (exists_owns_iff.mp ⟨l, hl⟩)
  · obtain ⟨i, r, hfirst, hr, hstart⟩ := exists_of_baseOf? hbase
    refine ⟨i, r, hfirst, hr, hstart, fun o ho hroom => ?_⟩
    have hinside : 0 + o < r.size := by rw [Nat.zero_add]; exact ho
    have howns : m.Owns base ⟨i, r, 0⟩ := ⟨hr, hstart, Nat.zero_lt_of_lt ho⟩
    have hshift := howns.shift hinside hroom
    rw [Nat.zero_add] at hshift
    exact locate_of_owns hshift

/-- An empty region in front of a kind takes no address, and a second region of
a kind has no base. -/
example :
    let m : Memory := ⟨[.ram 4, .vram 0, .stack 8, .ram 2]⟩
    m.baseOf? .stack = some 4 ∧ m.baseOf? .ram = some 0 ∧ m.extent = 14 ∧
      m.locate 4 .read = .ok ⟨2, .stack 8, 0⟩ ∧
      m.locate 11 .write = .error (.unauthorized .stack .write 11) ∧
      m.locate 13 .write = .ok ⟨3, .ram 2, 1⟩ ∧
      m.locate 14 .read = .error (.outOfRange .read 14) :=
  ⟨rfl, rfl, rfl, rfl, rfl, rfl, rfl⟩

end StackRisc.Memory
