import StackRisc.Proofs.Listing

/-!
# StackRisc.Proofs.Coverage

A listing covers its image: the entries stand for the bytes from offset 0 on,
one behind the other, up to the last byte that is not zero.

* `Listing.contentAt` — what is listed at an offset, whatever stands before it;
* `Listing.content_of_mem_ofImage` — every entry of a listing is that;
* `Listing.Tiles` — entries without gaps between them;
* `Listing.tiles_walk` — the entries of a listing are;
* `Listing.ofImage_covers` — so their bytes are the image, but for zeros at
  the end.
-/

namespace StackRisc

/-- No entry is empty. -/
theorem ListingEntry.size_pos (e : ListingEntry) : 0 < e.size := by
  unfold size
  split
  · exact Instruction.size_pos _
  · exact Nat.one_pos

theorem ListingEntry.size_le (e : ListingEntry) : e.size ≤ 5 := by
  unfold size
  split
  · next i _ =>
    rw [Instruction.size, Opcode.size]
    split <;> decide
  · decide

namespace Listing

/-! ## What is at an offset -/

/-- What a listing gives for the bytes at an offset of an image, which goes on
with zeros. -/
def contentAt (image : List Byte) (offset : Nat) : Except Byte Instruction :=
  match Opcode.ofByte? (image.getD offset 0) with
  | some op =>
    .ok (.ofOpcode op (if op.hasOperand then operand (image.drop (offset + 1)) else 0))
  | none => .error (image.getD offset 0)

/-- What an image holds at an offset, counted from elsewhere. -/
theorem contentAt_drop (image : List Byte) (n offset : Nat) :
    contentAt (image.drop n) offset = contentAt image (n + offset) := by
  have hget : (image.drop n).getD offset 0 = image.getD (n + offset) 0 := by
    rw [List.getD_eq_getElem?_getD, List.getElem?_drop, List.getD_eq_getElem?_getD]
  rw [contentAt, contentAt, hget, List.drop_drop, Nat.add_assoc]

/-- Zeros after the last byte change nothing. -/
theorem contentAt_append_replicate (image : List Byte) (n offset : Nat) :
    contentAt (image ++ List.replicate n 0) offset = contentAt image offset := by
  rw [contentAt, contentAt, getD_append_replicate, List.drop_append, List.drop_replicate,
    operand_append_replicate]

/-- Only a byte that is no operation code is listed alone. -/
theorem ofByte?_of_contentAt {image : List Byte} {offset : Nat} {b : Byte}
    (h : contentAt image offset = .error b) : Opcode.ofByte? b = none := by
  rw [contentAt] at h
  split at h
  · contradiction
  · next hnone =>
    cases h
    exact hnone

/-- The entry for what is at the front of bytes that start at an offset. -/
def entryAt (offset : Nat) (bytes : List Byte) : ListingEntry := ⟨offset, contentAt bytes 0⟩

/-- One entry is listed, then what is behind its bytes. -/
theorem walk_cons (fuel offset : Nat) (b : Byte) (rest : List Byte) :
    walk (fuel + 1) offset (b :: rest) =
      entryAt offset (b :: rest) ::
        walk fuel (offset + (entryAt offset (b :: rest)).size)
          ((b :: rest).drop (entryAt offset (b :: rest)).size) := by
  have hget : (b :: rest).getD 0 0 = b := rfl
  rw [walk, entryAt, contentAt, hget]
  cases Opcode.ofByte? b with
  | none => rfl
  | some op =>
      simp only [ListingEntry.size, List.drop_succ_cons, List.drop_zero, Nat.zero_add]
      generalize Instruction.ofOpcode op _ = i
      rw [i.size_eq, Nat.add_sub_cancel, List.drop_succ_cons]

/-- Going over bytes gives what is at the offset of each entry. -/
theorem content_of_mem_walk {fuel offset : Nat} {bytes : List Byte} {e : ListingEntry}
    (h : e ∈ walk fuel offset bytes) :
    ∃ n < bytes.length, e.offset = offset + n ∧ e.content = contentAt bytes n := by
  induction fuel generalizing offset bytes with
  | zero => cases h
  | succ fuel ih =>
      cases bytes with
      | nil => cases h
      | cons b rest =>
          rw [walk_cons, List.mem_cons] at h
          rcases h with rfl | h
          · exact ⟨0, Nat.succ_pos _, rfl, rfl⟩
          · obtain ⟨n, hn, hoffset, hcontent⟩ := ih h
            rw [List.length_drop] at hn
            rw [contentAt_drop] at hcontent
            exact ⟨_, by omega, hoffset.trans (Nat.add_assoc ..), hcontent⟩

/-- Every entry of a listing is what is at its offset in the image. -/
theorem content_of_mem_ofImage {image : List Byte} {e : ListingEntry} (h : e ∈ ofImage image) :
    e.offset < image.length ∧ e.content = contentAt image e.offset := by
  obtain ⟨n, hn, hoffset, hcontent⟩ := content_of_mem_walk h
  obtain ⟨m, hm⟩ := exists_trimZeros_append image
  have hlength := congrArg List.length hm
  rw [List.length_append] at hlength
  rw [Nat.zero_add] at hoffset
  refine ⟨by omega, ?_⟩
  rw [hcontent, hoffset, hm, contentAt_append_replicate, ← hm]

/-- An entry stands for the bytes at its offset, filled up with zeros. -/
theorem bytes_of_mem_ofImage {image : List Byte} {e : ListingEntry} (h : e ∈ ofImage image) :
    e.bytes = (List.range e.size).map fun k => image.getD (e.offset + k) 0 := by
  have hcontent := (content_of_mem_ofImage h).2
  rw [contentAt] at hcontent
  cases hop : Opcode.ofByte? (image.getD e.offset 0) with
  | none =>
      simp only [hop] at hcontent
      rw [ListingEntry.bytes, ListingEntry.size, hcontent]
      rfl
  | some op =>
      simp only [hop] at hcontent
      rw [ListingEntry.bytes, ListingEntry.size, hcontent]
      simp only [Instruction.encode_eq, Instruction.size_ofOpcode, Instruction.opcode_ofOpcode,
        Instruction.operandBytes_ofOpcode, Opcode.byte_of_ofByte? hop, Opcode.size]
      split
      · rw [List.range_succ_eq_map, List.map_cons, List.map_map, bytes_operand]
        refine congrArg _ (List.map_congr_left fun k _ => ?_)
        rw [List.getD_eq_getElem?_getD, List.getElem?_drop, ← List.getD_eq_getElem?_getD,
          Nat.add_right_comm]
        rfl
      · rfl

/-! ## Entries one behind the other -/

/-- Entries stand for the bytes from an offset up to another one, without a gap
between them. -/
def Tiles : (offset stop : Nat) → List ListingEntry → Prop
  | offset, stop, [] => offset = stop
  | offset, stop, e :: es => e.offset = offset ∧ Tiles (offset + e.size) stop es

variable {offset stop : Nat} {e : ListingEntry} {es : List ListingEntry}

/-- Entries end where they start, or later. -/
theorem Tiles.le (h : Tiles offset stop es) : offset ≤ stop := by
  induction es generalizing offset with
  | nil => exact Nat.le_of_eq h
  | cons e es ih => exact Nat.le_trans (Nat.le_add_right _ _) (ih h.2)

/-- No entry starts before the first offset. -/
theorem Tiles.le_offset (h : Tiles offset stop es) : ∀ e ∈ es, offset ≤ e.offset := by
  induction es generalizing offset with
  | nil => exact fun e he => nomatch he
  | cons e es ih =>
      obtain ⟨rfl, hrest⟩ := h
      refine List.forall_mem_cons.mpr ⟨Nat.le_refl _, fun x hx => ?_⟩
      exact Nat.le_trans (Nat.le_add_right _ _) (ih hrest x hx)

/-- The first entry starts at the first offset. -/
theorem Tiles.head (h : Tiles offset stop es) : ∀ e ∈ es.head?, e.offset = offset := by
  cases es with
  | nil => exact fun e he => nomatch he
  | cons x es =>
      rintro e ⟨⟩
      exact h.1

/-- Each entry starts where the one before it ends. -/
theorem Tiles.isChain (h : Tiles offset stop es) :
    es.IsChain fun e next => next.offset = e.offset + e.size := by
  induction es generalizing offset with
  | nil => exact .nil
  | cons e es ih =>
      obtain ⟨rfl, hrest⟩ := h
      cases es with
      | nil => exact .singleton e
      | cons next es => exact .cons_cons (hrest.head next rfl) (ih hrest)

/-- Every place is within an entry. -/
theorem Tiles.exists_mem (h : Tiles offset stop es) {n : Nat} (hlow : offset ≤ n)
    (hhigh : n < stop) : ∃ e ∈ es, e.offset ≤ n ∧ n < e.offset + e.size := by
  induction es generalizing offset with
  | nil =>
      have hend : offset = stop := h
      omega
  | cons e es ih =>
      obtain ⟨rfl, hrest⟩ := h
      rcases Nat.lt_or_ge n (e.offset + e.size) with hn | hn
      · exact ⟨e, List.mem_cons_self, hlow, hn⟩
      · obtain ⟨x, hx, hwithin⟩ := ih hrest hn
        exact ⟨x, List.mem_cons_of_mem e hx, hwithin⟩

/-- Entries that stand for the bytes at their offsets stand for all bytes from
the first offset on. -/
theorem Tiles.flatMap_bytes {image : List Byte} (h : Tiles offset stop es)
    (hbytes : ∀ e ∈ es, e.bytes = (List.range e.size).map fun k => image.getD (e.offset + k) 0) :
    es.flatMap ListingEntry.bytes =
      (List.range (stop - offset)).map fun k => image.getD (offset + k) 0 := by
  induction es generalizing offset with
  | nil =>
      have hend : offset = stop := h
      rw [hend, Nat.sub_self]
      rfl
  | cons e es ih =>
      obtain ⟨rfl, hrest⟩ := h
      obtain ⟨he, hes⟩ := List.forall_mem_cons.mp hbytes
      have hle := hrest.le
      have hlength : stop - e.offset = e.size + (stop - (e.offset + e.size)) := by omega
      rw [List.flatMap_cons, he, ih hrest hes, hlength, List.range_add, List.map_append,
        List.map_map]
      refine congrArg _ (List.map_congr_left fun k _ => ?_)
      rw [Function.comp, Nat.add_assoc]

/-! ## Covering an image -/

/-- Going over bytes stops at their end, but for an operand that is cut. -/
theorem tiles_walk {fuel : Nat} {bytes : List Byte} (h : bytes.length ≤ fuel) :
    ∃ stop, Tiles offset stop (walk fuel offset bytes) ∧ offset + bytes.length ≤ stop ∧
      stop ≤ offset + bytes.length + 4 := by
  induction fuel generalizing offset bytes with
  | zero =>
      obtain rfl := List.length_eq_zero_iff.mp (Nat.le_zero.mp h)
      exact ⟨offset, rfl, Nat.le_refl _, Nat.le_add_right _ _⟩
  | succ fuel ih =>
      cases bytes with
      | nil => exact ⟨offset, rfl, Nat.le_refl _, Nat.le_add_right _ _⟩
      | cons b rest =>
          have hpos := (entryAt offset (b :: rest)).size_pos
          have hle := (entryAt offset (b :: rest)).size_le
          rw [walk_cons]
          by_cases hcut : (b :: rest).length ≤ (entryAt offset (b :: rest)).size
          · rw [List.drop_eq_nil_of_le hcut, walk_nil]
            exact ⟨_, ⟨rfl, rfl⟩, by omega, by rw [List.length_cons]; omega⟩
          · have hrest : ((b :: rest).drop (entryAt offset (b :: rest)).size).length ≤ fuel := by
              rw [List.length_drop]
              omega
            obtain ⟨stop, htiles, hlow, hhigh⟩ := ih hrest
            rw [List.length_drop] at hlow hhigh
            exact ⟨stop, ⟨rfl, htiles⟩, by omega, by omega⟩

/-- There are never more entries than bytes, so the number of entries that may
be listed makes no difference. -/
theorem walk_eq_of_le {fuel fuel' : Nat} {bytes : List Byte} (h : bytes.length ≤ fuel)
    (h' : bytes.length ≤ fuel') : walk fuel offset bytes = walk fuel' offset bytes := by
  induction fuel generalizing fuel' offset bytes with
  | zero =>
      obtain rfl := List.length_eq_zero_iff.mp (Nat.le_zero.mp h)
      rw [walk_nil, walk_nil]
  | succ fuel ih =>
      cases bytes with
      | nil => rw [walk_nil, walk_nil]
      | cons b rest =>
          obtain ⟨fuel', rfl⟩ : ∃ n, fuel' = n + 1 :=
            Nat.exists_eq_succ_of_ne_zero (Nat.ne_of_gt (Nat.lt_of_lt_of_le (Nat.succ_pos _) h'))
          have hpos := (entryAt offset (b :: rest)).size_pos
          rw [List.length_cons] at h h'
          rw [walk_cons, walk_cons]
          refine congrArg _ (ih ?_ ?_) <;> rw [List.length_drop, List.length_cons] <;> omega

/-- Bytes that are read with zero as the default are followed by zeros. -/
theorem map_range_getD {bytes : List Byte} {n : Nat} (h : bytes.length ≤ n) :
    ((List.range n).map fun k => bytes.getD k 0) =
      bytes ++ List.replicate (n - bytes.length) 0 := by
  have hlength : (bytes ++ List.replicate (n - bytes.length) 0).length = n := by
    rw [List.length_append, List.length_replicate]
    omega
  refine List.ext_getElem (by rw [hlength, List.length_map, List.length_range]) fun k _ hk => ?_
  rw [List.getElem_map, List.getElem_range, ← getD_append_replicate bytes (n - bytes.length),
    List.getD_eq_getElem?_getD, List.getElem?_eq_getElem hk, Option.getD_some]

/-- A listing covers its image, whatever its bytes are.  Going over the bytes
ends by itself, so to allow more entries gives no more.  The entries start at
offset 0, each of them where the one before it ends; `BGE` and `LDI` take five
bytes and everything else takes one, also a byte that is no operation code.
Every byte up to the last one that is not zero belongs to an entry, and the
bytes of the entries are these bytes and at most four zeros, which fill up an
operand that is cut; the rest of the image is zeros. -/
theorem ofImage_covers (image : List Byte) :
    (∀ fuel, (trimZeros image).length ≤ fuel → walk fuel 0 (trimZeros image) = ofImage image) ∧
      (∀ e ∈ (ofImage image).head?, e.offset = 0) ∧
      (ofImage image).IsChain (fun e next => next.offset = e.offset + e.size) ∧
      (∀ e ∈ ofImage image, ∀ i, e.content = .ok i →
        e.size = if i.opcode = .bge ∨ i.opcode = .ldi then 5 else 1) ∧
      (∀ e ∈ ofImage image, ∀ b, e.content = .error b →
        e.size = 1 ∧ Opcode.ofByte? b = none) ∧
      (∀ n < (trimZeros image).length, ∃ e ∈ ofImage image,
        e.offset ≤ n ∧ n < e.offset + e.size) ∧
      ∃ k n, k ≤ 4 ∧
        (ofImage image).flatMap ListingEntry.bytes = trimZeros image ++ List.replicate k 0 ∧
          image = trimZeros image ++ List.replicate n 0 := by
  obtain ⟨stop, htiles, hlow, hhigh⟩ := @tiles_walk 0 _ _ (Nat.le_refl (trimZeros image).length)
  rw [Nat.zero_add] at hlow hhigh
  obtain ⟨n, hn⟩ := exists_trimZeros_append image
  refine ⟨fun fuel hfuel => walk_eq_of_le hfuel (Nat.le_refl _), htiles.head, htiles.isChain,
    fun e he i hi => ?_, fun e he b hb => ?_,
    fun n hlt => htiles.exists_mem (Nat.zero_le n) (by omega),
    stop - (trimZeros image).length, n, by omega, ?_, hn⟩
  · rw [ListingEntry.size, hi]
    cases i <;> rfl
  · have hcontent := (content_of_mem_ofImage he).2
    rw [hb] at hcontent
    exact ⟨by rw [ListingEntry.size, hb], ofByte?_of_contentAt hcontent.symm⟩
  · have hget (k : Nat) : image.getD (0 + k) 0 = (trimZeros image).getD k 0 := by
      rw [Nat.zero_add, ← getD_append_replicate (trimZeros image) n k, ← hn]
    rw [ofImage, htiles.flatMap_bytes fun e => bytes_of_mem_ofImage, Nat.sub_zero,
      List.map_congr_left fun k _ => hget k, map_range_getD hlow]

/-- A byte that is no operation code, and an operand that is cut behind its
first byte. -/
theorem ofImage_covers_cut :
    ofImage [0xfe, 1, 7, 0] = [⟨0, .error 0xfe⟩, ⟨1, .ok (.ldi 7)⟩] ∧
      ∃ k n, k ≤ 4 ∧
        (ofImage [0xfe, 1, 7, 0]).flatMap ListingEntry.bytes =
          [0xfe, 1, 7] ++ List.replicate k 0 ∧
        [0xfe, 1, 7, 0] = [0xfe, 1, 7] ++ List.replicate n (0 : Byte) :=
  ⟨rfl, (ofImage_covers [0xfe, 1, 7, 0]).2.2.2.2.2.2⟩

end Listing

end StackRisc
