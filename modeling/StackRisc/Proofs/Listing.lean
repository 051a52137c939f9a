import StackRisc.Proofs.Encoding
import Mathlib.Data.List.DropRight

/-!
# StackRisc.Proofs.Listing

What is listed of an image that was made of instructions.  The image does
not say where its instructions end, and `BGE` with target 0 is five zeros,
so a listing gives back all instructions but those `BGE 0` at the end:

* `Listing.trimZeros_append` — what trimming zeros keeps;
* `Listing.walk_flatMap_encode` — going over instructions lists each of them
  at its offset;
* `Listing.ofImage_flatMap_encode` — the listing of a filled-up image.
-/

namespace StackRisc

/-- The branch that is encoded as zeros only. -/
def Instruction.isBlank (i : Instruction) : Bool := i == .bge 0

/-- A blank instruction is made of zeros. -/
theorem Instruction.encode_of_isBlank {i : Instruction} (h : i.isBlank) :
    i.encode = List.replicate 5 0 := by
  rw [eq_of_beq h]
  rfl

/-- No other instruction is encoded as zeros only. -/
theorem Instruction.isBlank_of_encode {i : Instruction} (h : ∀ b ∈ i.encode, b = 0) :
    i.isBlank := by
  have hcode : i.opcode = .bge := by
    have hbyte : i.opcode.byte = 0 := h _ (by simp [encode_eq])
    have hread := i.opcode.ofByte?_byte
    rw [hbyte] at hread
    exact (Option.some.inj hread).symm
  have hoperand : i.operand = 0 := by
    have hbytes : ∀ b ∈ i.operand.bytes, b = 0 := by
      intro b hb
      refine h b ?_
      rw [encode_eq, operandBytes, hcode]
      exact List.mem_cons_of_mem _ hb
    have hzero : ∀ k ∈ [0, 1, 2, 3], i.operand.byteAt k = 0 :=
      fun k hk => hbytes _ (List.mem_map_of_mem (f := i.operand.byteAt) hk)
    rw [← i.operand.ofBytes_byteAt, hzero 0 (by simp), hzero 1 (by simp), hzero 2 (by simp),
      hzero 3 (by simp)]
    rfl
  have heq := i.ofOpcode_operand
  rw [hcode, hoperand] at heq
  rw [isBlank, ← heq]
  rfl

namespace Listing

/-! ## Zeros at the end -/

/-- Trailing zeros are dropped. -/
theorem trimZeros_eq (bytes : List Byte) : trimZeros bytes = bytes.rdropWhile (· == 0) := rfl

/-- More zeros at the end make no difference. -/
@[simp] theorem trimZeros_append_replicate (bytes : List Byte) (n : Nat) :
    trimZeros (bytes ++ List.replicate n 0) = trimZeros bytes := by
  induction n with
  | zero => rw [List.replicate_zero, List.append_nil]
  | succ n ih =>
      rw [List.replicate_succ', ← List.append_assoc, trimZeros_eq,
        List.rdropWhile_concat_pos _ _ _ rfl]
      exact ih

/-- Bytes behind which one is kept are kept. -/
theorem trimZeros_append {bytes rest : List Byte} (h : trimZeros rest ≠ []) :
    trimZeros (bytes ++ rest) = bytes ++ trimZeros rest := by
  unfold trimZeros at h ⊢
  rw [List.reverse_append, List.dropWhile_append, if_neg]
  · rw [List.reverse_append, List.reverse_reverse]
  · rwa [List.isEmpty_iff, ← List.reverse_eq_nil_iff]

/-- Trimming takes away nothing but zeros. -/
theorem exists_trimZeros_append (bytes : List Byte) :
    ∃ n, bytes = trimZeros bytes ++ List.replicate n 0 := by
  refine ⟨(bytes.rtakeWhile (· == 0)).length, ?_⟩
  have hzero : ∀ b ∈ bytes.rtakeWhile (· == 0), b = 0 := by
    intro b hb
    exact eq_of_beq (List.mem_rtakeWhile_imp (p := (· == 0)) hb)
  rw [trimZeros_eq, ← List.eq_replicate_of_mem hzero]
  exact List.rdropWhile_append_rtakeWhile.symm

/-- A byte of an instruction is kept, unless it is the blank one. -/
theorem trimZeros_encode_ne_nil {i : Instruction} (h : ¬ i.isBlank) : trimZeros i.encode ≠ [] := by
  rw [trimZeros_eq, Ne, List.rdropWhile_eq_nil_iff]
  intro hall
  exact h (Instruction.isBlank_of_encode fun b hb => eq_of_beq (hall b hb))

/-! ## Going over instructions -/

/-- The listing of instructions, the first of them at an offset. -/
def entriesFrom : (offset : Nat) → List Instruction → List ListingEntry
  | _, [] => []
  | offset, i :: is => ⟨offset, .ok i⟩ :: entriesFrom (offset + i.size) is

/-- Instructions are listed one after the other. -/
theorem entriesFrom_append (offset : Nat) (is js : List Instruction) :
    entriesFrom offset (is ++ js) =
      entriesFrom offset is ++
        entriesFrom (offset + (is.flatMap Instruction.encode).length) js := by
  induction is generalizing offset with
  | nil => rfl
  | cons i is ih =>
      rw [List.cons_append, entriesFrom, entriesFrom, ih, List.cons_append, List.flatMap_cons,
        List.length_append, Instruction.length_encode, Nat.add_assoc]

@[simp] theorem walk_nil (fuel offset : Nat) : walk fuel offset [] = [] := by
  cases fuel <;> rfl

/-- Reading with zero as the default does not see zeros at the end. -/
theorem getD_append_replicate (bytes : List Byte) (n i : Nat) :
    (bytes ++ List.replicate n 0).getD i 0 = bytes.getD i 0 := by
  rw [List.getD_eq_getElem?_getD, List.getD_eq_getElem?_getD, List.getElem?_append]
  split
  · rfl
  · next h =>
    rw [List.getElem?_replicate, List.getElem?_eq_none (Nat.not_lt.mp h)]
    split <;> rfl

/-- Zeros after the last byte do not change an operand. -/
theorem operand_append_replicate (bytes : List Byte) (n : Nat) :
    operand (bytes ++ List.replicate n 0) = operand bytes := by
  simp only [operand, getD_append_replicate]

/-- An instruction of which only zeros are cut off is listed. -/
theorem walk_cut {i : Instruction} {b : Byte} {cut : List Byte} {n : Nat}
    (h : i.encode = b :: cut ++ List.replicate n 0) (fuel offset : Nat) :
    walk (fuel + 1) offset (b :: cut) = [⟨offset, .ok i⟩] := by
  rw [Instruction.encode_eq, List.cons_append, List.cons.injEq] at h
  obtain ⟨rfl, hbytes⟩ := h
  have hlength : cut.length ≤ i.size - 1 := by
    have hsum := congrArg List.length hbytes
    rw [List.length_append] at hsum
    have hsize := i.size_eq
    omega
  have hdecoded := ofOpcode_operandBytes i []
  rw [List.append_nil, hbytes, operand_append_replicate] at hdecoded
  rw [walk]
  simp only [Opcode.ofByte?_byte, hdecoded, List.drop_eq_nil_of_le hlength, walk_nil]

/-- An encoded instruction is listed as itself. -/
theorem walk_encode (i : Instruction) (rest : List Byte) (fuel offset : Nat) :
    walk (fuel + 1) offset (i.encode ++ rest) =
      ⟨offset, .ok i⟩ :: walk fuel (offset + i.size) rest := by
  have hdrop : (i.operandBytes ++ rest).drop (i.size - 1) = rest := by
    rw [i.size_eq, Nat.add_sub_cancel, List.drop_left]
  rw [Instruction.encode_eq, List.cons_append, walk]
  simp only [Opcode.ofByte?_byte, ofOpcode_operandBytes, hdrop]

/-- Going over instructions lists each of them at its offset. -/
theorem walk_flatMap_encode (is : List Instruction) (rest : List Byte) (fuel offset : Nat) :
    walk (is.length + fuel) offset (is.flatMap Instruction.encode ++ rest) =
      entriesFrom offset is ++
        walk fuel (offset + (is.flatMap Instruction.encode).length) rest := by
  induction is generalizing offset with
  | nil => rw [List.length_nil, Nat.zero_add]; rfl
  | cons i is ih =>
      rw [List.length_cons, Nat.add_right_comm, List.flatMap_cons, List.append_assoc, walk_encode,
        ih, entriesFrom, List.cons_append, List.length_append, Instruction.length_encode,
        Nat.add_assoc]

theorem length_le_length_flatMap_encode (is : List Instruction) :
    is.length ≤ (is.flatMap Instruction.encode).length := by
  induction is with
  | nil => exact Nat.le_refl _
  | cons i is ih =>
      have hpos := i.size_pos
      rw [List.length_cons, List.flatMap_cons, List.length_append, Instruction.length_encode]
      omega

/-- The listing of instructions and zeros: all instructions at their
offsets, except the blank branches at the end. -/
theorem ofImage_flatMap_encode (is : List Instruction) (n : Nat) :
    ofImage (is.flatMap Instruction.encode ++ List.replicate n 0) =
      entriesFrom 0 (is.rdropWhile Instruction.isBlank) := by
  induction is using List.reverseRecOn generalizing n with
  | nil =>
      rw [ofImage, trimZeros_append_replicate]
      rfl
  | append_singleton is i ih =>
      by_cases hblank : i.isBlank
      · rw [List.rdropWhile_concat_pos _ _ _ hblank, ← ih (5 + n), List.flatMap_append,
          List.flatMap_singleton, Instruction.encode_of_isBlank hblank, List.append_assoc,
          List.replicate_append_replicate]
      · have htrim : trimZeros ((is ++ [i]).flatMap Instruction.encode) =
            is.flatMap Instruction.encode ++ trimZeros i.encode := by
          rw [List.flatMap_append, List.flatMap_singleton]
          exact trimZeros_append (trimZeros_encode_ne_nil hblank)
        obtain ⟨b, cut, hcut⟩ := List.exists_cons_of_ne_nil (trimZeros_encode_ne_nil hblank)
        obtain ⟨m, hm⟩ := exists_trimZeros_append i.encode
        rw [hcut] at hm htrim
        have hle := length_le_length_flatMap_encode is
        obtain ⟨fuel, hfuel⟩ : ∃ fuel,
            (is.flatMap Instruction.encode ++ b :: cut).length = is.length + (fuel + 1) := by
          refine ⟨(is.flatMap Instruction.encode).length - is.length + cut.length, ?_⟩
          rw [List.length_append, List.length_cons]
          omega
        rw [List.rdropWhile_concat_neg _ _ _ hblank, ofImage, trimZeros_append_replicate, htrim,
          hfuel, walk_flatMap_encode, walk_cut hm, entriesFrom_append, Nat.zero_add]
        rfl

/-! ## What a listing tells -/

/-- The entries of instructions hold these instructions. -/
theorem contents_entriesFrom (offset : Nat) (is : List Instruction) :
    (entriesFrom offset is).map (·.content) = is.map .ok := by
  induction is generalizing offset with
  | nil => rfl
  | cons i is ih => rw [entriesFrom, List.map_cons, ih, List.map_cons]

/-- Different instructions have different listings. -/
theorem entriesFrom_injective {offset : Nat} {is js : List Instruction}
    (h : entriesFrom offset is = entriesFrom offset js) : is = js := by
  have hcontents := congrArg (List.map (·.content)) h
  rw [contents_entriesFrom, contents_entriesFrom] at hcontents
  exact List.map_injective_iff.mpr (fun _ _ h => Except.ok.inj h) hcontents

/-- All instructions are listed unless the last one is blank. -/
theorem entriesFrom_rdropWhile_eq_iff {offset : Nat} {is : List Instruction} :
    entriesFrom offset (is.rdropWhile Instruction.isBlank) = entriesFrom offset is ↔
      is.getLast? ≠ some (.bge 0) := by
  have hself : entriesFrom offset (is.rdropWhile Instruction.isBlank) = entriesFrom offset is ↔
      is.rdropWhile Instruction.isBlank = is := by
    constructor
    · exact entriesFrom_injective
    · intro h
      rw [h]
  rw [hself, List.rdropWhile_eq_self_iff]
  constructor
  · intro h hlast
    obtain ⟨front, rfl⟩ := List.getLast?_eq_some_iff.mp hlast
    refine h (List.append_ne_nil_of_right_ne_nil _ (List.cons_ne_nil _ _)) ?_
    rw [List.getLast_concat]
    rfl
  · intro h hne hblank
    rw [List.getLast?_eq_some_getLast hne] at h
    exact h (congrArg some (eq_of_beq hblank))

end Listing

end StackRisc
