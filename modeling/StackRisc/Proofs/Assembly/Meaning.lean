import StackRisc.Proofs.Assembly.Resolution
import StackRisc.Proofs.Encoding
import Mathlib.Data.List.Forall2

/-!
# StackRisc.Proofs.Assembly.Meaning

The instructions that emissions stand for:

* `SourceProgram.Means.unique` — there is at most one;
* `SourceProgram.Means.size_eq` — it is as long as the emission says;
* `SourceProgram.Means.inRange` — its operand is in range;
* `SourceProgram.means_bge`, `SourceProgram.means_ldi` — operands that are
  written as numbers.
-/

namespace StackRisc

/-! ## Operands in range -/

/-- An operand in range is its own word. -/
theorem Word.toInt_ofInt {v : Int} (h0 : 0 ≤ v) (h1 : v ≤ Word.largest) :
    (Int32.ofInt v).toInt = v := by
  have hlt : v < 2147483648 := by
    have hle : v ≤ 2147483647 := h1
    omega
  exact Int32.toInt_ofInt_of_le (by omega) hlt

namespace Instruction

/-- What an assembled program can hold: branches stay in the program and
words are not negative. -/
def InRange : Instruction → Prop
  | bge target => target.toNat < offsetLimit
  | ldi value => 0 ≤ value.toInt
  | _ => True

end Instruction

namespace SourceProgram

variable {p : SourceProgram}

/-! ## One emission -/

/-- An emission stands for at most one instruction. -/
theorem Means.unique {e : Emission} {i i' : Instruction} (h : p.Means e i) (h' : p.Means e i') :
    i = i' := by
  cases h with
  | bare op =>
      cases h' with
      | bare => rfl
  | withOperand hv =>
      cases h' with
      | withOperand hv' => rw [hv.unique hv']

/-- An instruction is as long as its operation code says. -/
theorem Means.size_eq {e : Emission} {i : Instruction} (h : p.Means e i) :
    i.size = e.opcode.size := by
  cases h with
  | bare op => exact Instruction.size_ofOpcode op 0
  | withOperand _ _ _ _ => exact Instruction.size_ofOpcode _ _

/-- An instruction that a program can hold. -/
theorem Means.inRange {e : Emission} {i : Instruction} (h : p.Means e i) : i.InRange := by
  cases h with
  | bare op =>
      cases op with
      | bge => exact (by decide : (0 : Address).toNat < offsetLimit)
      | ldi => exact Int.le_refl 0
      | _ => trivial
  | @withOperand op _ v _ h0 h1 ht =>
      cases op with
      | bge =>
          obtain ⟨n, rfl⟩ := Int.eq_ofNat_of_zero_le h0
          have hn : n < offsetLimit := Int.ofNat_lt.mp (ht rfl)
          have hsize : offsetLimit < UInt32.size := by decide
          show (Word.toAddress (Int32.ofInt n)).toNat < offsetLimit
          rw [Int32.ofInt_eq_ofNat, Word.toAddress, Int32.toUInt32_ofNat',
            UInt32.toNat_ofNat_of_lt' (by omega)]
          exact hn
      | ldi =>
          show 0 ≤ (Int32.ofInt v).toInt
          rw [Word.toInt_ofInt h0 h1]
          exact h0
      | _ => trivial

/-- A word that is not negative, written as a number. -/
theorem means_ldi (p : SourceProgram) (w : Word) (h : 0 ≤ w.toInt) (span : Span) :
    p.Means ⟨.ldi, some ⟨.decimal w.toInt, span⟩⟩ (.ldi w) := by
  have hle : w.toInt ≤ Word.largest := by
    have hlt := w.toInt_lt
    have hlargest : (Word.largest : Int) = 2147483647 := rfl
    omega
  have hmeans : p.Means ⟨.ldi, some ⟨.decimal w.toInt, span⟩⟩
      (.ofOpcode .ldi (Int32.ofInt w.toInt)) :=
    .withOperand (Bindings.denotes_decimal _ _) h hle (fun h => absurd h (by decide))
  rwa [Int32.ofInt_toInt] at hmeans

/-- A branch target in the program, written as a number. -/
theorem means_bge (p : SourceProgram) (target : Address) (h : target.toNat < offsetLimit)
    (span : Span) : p.Means ⟨.bge, some ⟨.hex target.toNat, span⟩⟩ (.bge target) := by
  have hle : (target.toNat : Int) ≤ Word.largest := by
    have hlimit : offsetLimit ≤ Word.largest := by decide
    omega
  have hmeans : p.Means ⟨.bge, some ⟨.hex target.toNat, span⟩⟩
      (.ofOpcode .bge (Int32.ofInt target.toNat)) :=
    .withOperand (Bindings.denotes_hex _ _) (Int.natCast_nonneg _) hle (fun _ => by omega)
  have htarget : Word.toAddress (Int32.ofInt target.toNat) = target := by
    rw [Int32.ofInt_eq_ofNat, Word.toAddress, Int32.toUInt32_ofNat', UInt32.ofNat_toNat]
  rwa [Instruction.ofOpcode, htarget] at hmeans

/-! ## All emissions -/

/-- Every emission stands for an instruction exactly if there is a list of
instructions that the emissions stand for. -/
theorem exists_means_iff {es : List Emission} :
    (∃ is, List.Forall₂ p.Means es is) ↔ ∀ e ∈ es, ∃ i, p.Means e i := by
  induction es with
  | nil => simp
  | cons e es ih =>
      rw [List.forall_mem_cons, ← ih]
      constructor
      · rintro ⟨is, h⟩
        cases h with
        | cons hi his => exact ⟨⟨_, hi⟩, _, his⟩
      · rintro ⟨⟨i, hi⟩, is, his⟩
        exact ⟨i :: is, .cons hi his⟩

/-- Emissions stand for one list of instructions. -/
theorem means_list_unique {es : List Emission} {is is' : List Instruction}
    (h : List.Forall₂ p.Means es is) (h' : List.Forall₂ p.Means es is') : is = is' :=
  List.right_unique_forall₂' (fun _ _ _ h h' => h.unique h') h h'

/-- Instructions take as many bytes as were laid out for their emissions. -/
theorem length_flatMap_encode {es : List Emission} {is : List Instruction}
    (h : List.Forall₂ p.Means es is) : (is.flatMap Instruction.encode).length = codeSize es := by
  induction h with
  | nil => rfl
  | cons hi _ ih =>
      rw [List.flatMap_cons, List.length_append, Instruction.length_encode, hi.size_eq, ih,
        codeSize_cons]

/-- The instruction of one emission among those of all emissions. -/
theorem exists_of_forall₂_append {before after : List Emission} {e : Emission}
    {is : List Instruction} (h : List.Forall₂ p.Means (before ++ e :: after) is) :
    ∃ is₁ i is₂, is = is₁ ++ i :: is₂ ∧ List.Forall₂ p.Means before is₁ ∧ p.Means e i ∧
      List.Forall₂ p.Means after is₂ := by
  induction before generalizing is with
  | nil =>
      cases h with
      | cons hi hrest => exact ⟨[], _, _, rfl, .nil, hi, hrest⟩
  | cons x before ih =>
      cases h with
      | cons hx hrest =>
          obtain ⟨is₁, i, is₂, rfl, h₁, hi, h₂⟩ := ih hrest
          exact ⟨_ :: is₁, i, is₂, rfl, .cons hx h₁, hi, h₂⟩

/-- The operands of assembled instructions are in range. -/
theorem inRange_of_mem {es : List Emission} {is : List Instruction}
    (h : List.Forall₂ p.Means es is) : ∀ i ∈ is, i.InRange := by
  induction h with
  | nil => exact fun i hi => absurd hi List.not_mem_nil
  | cons hi _ ih => exact List.forall_mem_cons.mpr ⟨hi.inRange, ih⟩

end SourceProgram

end StackRisc
