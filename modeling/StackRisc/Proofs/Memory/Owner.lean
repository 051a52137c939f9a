import Mathlib.Algebra.GroupWithZero.Nat
import StackRisc.Memory.Map

/-!
# StackRisc.Proofs.Memory.Owner

Which region an address belongs to.  The regions are laid out back to back,
so every address below the end of the map lies in exactly one of them, at
one offset:

* `Owns.unique` — no two locations share an address;
* `locate_of_owns` — an access finds the owner, or is denied in its name;
* `locate_eq_ok_iff` — an access lands exactly where the owner grants it.
-/

namespace StackRisc

/-- Addresses are counted on without wrapping, as long as there is room. -/
theorem toNat_add_ofNat {a : Address} {i : Nat} (h : a.toNat + i < UInt32.size) :
    (a + UInt32.ofNat i).toNat = a.toNat + i := by
  have hi : (UInt32.ofNat i).toNat = i := UInt32.toNat_ofNat_of_lt' (by omega)
  rw [UInt32.toNat_add, hi]
  exact Nat.mod_eq_of_lt h

namespace Memory

variable {m : Memory} {address : Address} {access : Access} {l l' : Location}

/-- Where the region of an index starts. -/
def start (m : Memory) (index : Nat) : Nat := ((m.regions.take index).map Region.size).sum

/-- The address lies in the region of a location, at its offset, whatever
the region grants. -/
structure Owns (m : Memory) (address : Address) (l : Location) : Prop where
  region : m.regions[l.index]? = some l.region
  position : address.toNat = m.start l.index + l.offset
  inside : l.offset < l.region.size

/-! ## Owners -/

/-- A region starts where the one before it ends. -/
theorem start_succ {i : Nat} {r : Region} (h : m.regions[i]? = some r) :
    m.start (i + 1) = m.start i + r.size := by
  simp [start, List.take_add_one, h]

theorem start_le_start_succ (m : Memory) (i : Nat) : m.start i ≤ m.start (i + 1) := by
  cases h : m.regions[i]? with
  | none => simp [start, List.take_add_one, h]
  | some r => rw [start_succ h]; exact Nat.le_add_right _ _

/-- A region ends where or before every later one starts. -/
theorem start_add_size_le {i j : Nat} {r : Region} (h : m.regions[i]? = some r) (hlt : i < j) :
    m.start i + r.size ≤ m.start j := by
  induction hlt with
  | refl => exact Nat.le_of_eq (start_succ h).symm
  | step _ ih => exact Nat.le_trans ih (m.start_le_start_succ _)

/-- An address has one owner. -/
theorem Owns.unique (h : m.Owns address l) (h' : m.Owns address l') : l = l' := by
  obtain ⟨index, region, offset⟩ := l
  obtain ⟨index', region', offset'⟩ := l'
  obtain ⟨hregion, hposition, hinside⟩ := h
  obtain ⟨hregion', hposition', hinside'⟩ := h'
  dsimp only at *
  have hindex : index = index' := by
    rcases Nat.lt_trichotomy index index' with hlt | heq | hgt
    · have := start_add_size_le hregion hlt
      omega
    · exact heq
    · have := start_add_size_le hregion' hgt
      omega
  subst hindex
  rw [hregion, Option.some.injEq] at hregion'
  have hoffset : offset = offset' := by omega
  rw [hregion', hoffset]

/-- Behind an address of a region follow its other addresses. -/
theorem Owns.shift (h : m.Owns address l) {i : Nat} (hi : l.offset + i < l.region.size)
    (haddress : address.toNat + i < UInt32.size) :
    m.Owns (address + UInt32.ofNat i) { l with offset := l.offset + i } where
  region := h.region
  position := by rw [toNat_add_ofNat haddress, h.position, Nat.add_assoc]
  inside := hi

/-! ## Finding the owner -/

/-- The region with an address is found, past those in front of it. -/
theorem locateFrom_of_getElem? {regions : List Region} {index start i offset : Nat} {r : Region}
    (hr : regions[i]? = some r)
    (haddress : address.toNat = start + ((regions.take i).map Region.size).sum + offset)
    (hoffset : offset < r.size) :
    locateFrom address access index start regions =
      if access.grantedBy r.permissions then .ok ⟨index + i, r, offset⟩
      else .error (.unauthorized r.kind access address) := by
  induction regions generalizing index start i with
  | nil => simp at hr
  | cons q rest ih =>
      cases i with
      | zero =>
          obtain rfl : q = r := by simpa using hr
          have hsum : address.toNat = start + offset := by simpa using haddress
          rw [locateFrom, if_pos (by omega), hsum, Nat.add_sub_cancel_left, Nat.add_zero]
      | succ i =>
          have hsum : address.toNat =
              start + q.size + ((rest.take i).map Region.size).sum + offset := by
            simpa [Nat.add_assoc] using haddress
          rw [locateFrom, if_neg (by omega), ih (by simpa using hr) hsum, Nat.add_assoc,
            Nat.add_comm 1]

/-- An address below the end of the regions lies in one of them. -/
theorem exists_getElem?_of_lt {regions : List Region} {start : Nat} (hle : start ≤ address.toNat)
    (hlt : address.toNat < start + (regions.map Region.size).sum) :
    ∃ i r offset, regions[i]? = some r ∧
      address.toNat = start + ((regions.take i).map Region.size).sum + offset ∧
      offset < r.size := by
  induction regions generalizing start with
  | nil => simp at hlt; omega
  | cons q rest ih =>
      by_cases hq : address.toNat < start + q.size
      · exact ⟨0, q, address.toNat - start, by simp, by simp; omega, by omega⟩
      · have hsum : address.toNat < start + q.size + (rest.map Region.size).sum := by
          simpa [Nat.add_assoc] using hlt
        obtain ⟨i, r, offset, hr, haddress, hoffset⟩ := ih (by omega) hsum
        exact ⟨i + 1, r, offset, by simpa using hr, by simpa [Nat.add_assoc] using haddress,
          hoffset⟩

/-- An address at or past the end of the regions is in none of them. -/
theorem locateFrom_of_le {regions : List Region} {index start : Nat}
    (h : start + (regions.map Region.size).sum ≤ address.toNat) :
    locateFrom address access index start regions = .error (.outOfRange access address) := by
  induction regions generalizing index start with
  | nil => rfl
  | cons q rest ih =>
      have hsum : start + q.size + (rest.map Region.size).sum ≤ address.toNat := by
        simpa [Nat.add_assoc] using h
      rw [locateFrom, if_neg (by omega), ih hsum]

/-- An access finds the owner of its address, or is denied in its name. -/
theorem locate_of_owns (h : m.Owns address l) :
    m.locate address access =
      if access.grantedBy l.region.permissions then .ok l
      else .error (.unauthorized l.region.kind access address) := by
  have hposition : address.toNat =
      0 + ((m.regions.take l.index).map Region.size).sum + l.offset := by
    rw [Nat.zero_add]
    exact h.position
  rw [locate, locateFrom_of_getElem? h.region hposition h.inside, Nat.zero_add]

/-- An address without an owner is out of range. -/
theorem locate_of_not_owned (h : ∀ l, ¬ m.Owns address l) :
    m.locate address access = .error (.outOfRange access address) := by
  refine locateFrom_of_le (Nat.not_lt.mp fun hlt => ?_)
  obtain ⟨i, r, offset, hr, haddress, hoffset⟩ := exists_getElem?_of_lt (Nat.zero_le _) hlt
  rw [Nat.zero_add] at haddress
  exact h ⟨i, r, offset⟩ ⟨hr, haddress, hoffset⟩

/-- An access lands exactly where the owner of its address grants it. -/
theorem locate_eq_ok_iff :
    m.locate address access = .ok l ↔
      m.Owns address l ∧ access.grantedBy l.region.permissions = true := by
  by_cases h : ∃ l', m.Owns address l'
  · obtain ⟨l', hl'⟩ := h
    rw [locate_of_owns hl']
    constructor
    · intro heq
      split at heq
      · next hgranted =>
        obtain rfl := Except.ok.inj heq
        exact ⟨hl', hgranted⟩
      · cases heq
    · rintro ⟨hl, hgranted⟩
      obtain rfl := hl.unique hl'
      rw [if_pos hgranted]
  · have hnone : ∀ l', ¬ m.Owns address l' := fun l' hl' => h ⟨l', hl'⟩
    simp [locate_of_not_owned hnone, hnone l]

end Memory

end StackRisc
