import StackRisc.Word

/-!
# StackRisc.Memory.Block

A block of bytes of a fixed size, all zero at first.  The bytes are kept in
a tree that splits on the bits of the index, least significant first, and
stops where all bytes below are equal, so a large block costs only what was
written to it.  Main statement: reading back gives the byte last written at
that index (`Cells.get_set`).
-/

namespace StackRisc

/-! ## Cells -/

/-- Bytes at the indices `0, 1, 2, …`: all equal, or those at even and at
odd indices apart. -/
inductive Cells where
  | all (b : Byte)
  | split (even odd : Cells)
  deriving Repr, Inhabited

namespace Cells

/-- The byte at an index. -/
def get : Cells → Nat → Byte
  | all b, _ => b
  | split even odd, i => if i % 2 = 0 then even.get (i / 2) else odd.get (i / 2)

/-- Number of indices of a tree of a depth. -/
def reach : (depth : Nat) → Nat
  | 0 => 1
  | depth + 1 => 2 * reach depth

theorem reach_eq_two_pow (depth : Nat) : reach depth = Nat.pow 2 depth := by
  induction depth with
  | zero => rfl
  | succ depth ih => rw [reach, ih, Nat.mul_comm]; rfl

/-- Put a byte at an index that a tree of a depth reaches. -/
def set : (depth : Nat) → Cells → Nat → Byte → Cells
  | 0, _, _, b => all b
  | depth + 1, all c, i, b =>
    if c = b then all c
    else if i % 2 = 0 then split (set depth (all c) (i / 2) b) (all c)
    else split (all c) (set depth (all c) (i / 2) b)
  | depth + 1, split even odd, i, b =>
    if i % 2 = 0 then split (set depth even (i / 2) b) odd
    else split even (set depth odd (i / 2) b)

/-- A cell that was set holds the new byte, and all others keep theirs. -/
theorem get_set (depth : Nat) (c : Cells) (i j : Nat) (b : Byte)
    (hi : i < reach depth) (hj : j < reach depth) :
    (set depth c i b).get j = if i = j then b else c.get j := by
  induction depth generalizing c i j with
  | zero =>
    have : i = j := by simp only [reach] at hi hj; omega
    simp [set, get, this]
  | succ depth ih =>
    have hi' : i / 2 < reach depth := by simp only [reach] at hi; omega
    have hj' : j / 2 < reach depth := by simp only [reach] at hj; omega
    have halves : i % 2 = j % 2 → (i / 2 = j / 2 ↔ i = j) := by omega
    cases c with
    | all c =>
      simp only [set]
      split
      · next h => subst h; simp [get]
      · split <;> simp only [get]
        · split
          · rw [ih _ _ _ hi' hj']; simp [get, halves (by omega)]
          · have : i ≠ j := by omega
            simp [this]
        · split
          · have : i ≠ j := by omega
            simp [this]
          · rw [ih _ _ _ hi' hj']; simp [get, halves (by omega)]
    | split even odd =>
      simp only [set]
      split <;> simp only [get]
      · split
        · rw [ih _ _ _ hi' hj']; simp [halves (by omega)]
        · have : i ≠ j := by omega
          simp [this]
      · split
        · have : i ≠ j := by omega
          simp [this]
        · rw [ih _ _ _ hi' hj']; simp [halves (by omega)]

/-- A bound on the indices in reach that hold a byte other than zero. -/
def extent : (depth : Nat) → Cells → Nat
  | depth, all b => if b = 0 then 0 else reach depth
  | 0, split _ _ => 1
  | depth + 1, split even odd => max (2 * extent depth even - 1) (2 * extent depth odd)

end Cells

/-! ## Blocks -/

structure Block where
  size : Nat
  cells : Cells := .all 0
  deriving Repr, Inhabited

namespace Block

def zeros (size : Nat) : Block := ⟨size, .all 0⟩

/-- Number of bits that hold every index of the block. -/
def depth (b : Block) : Nat := b.size.log2 + 1

def get? (b : Block) (i : Nat) : Option Byte :=
  if i < b.size then some (b.cells.get i) else none

/-- Put a byte at an index; outside the block nothing changes. -/
def set (b : Block) (i : Nat) (v : Byte) : Block :=
  if i < b.size then { b with cells := b.cells.set b.depth i v } else b

/-- Every byte of a block has a cell. -/
theorem lt_reach_depth {b : Block} {i : Nat} (h : i < b.size) : i < Cells.reach b.depth := by
  rw [Cells.reach_eq_two_pow]
  exact Nat.lt_trans h Nat.lt_log2_self

@[simp] theorem size_set (b : Block) (i : Nat) (v : Byte) : (b.set i v).size = b.size := by
  unfold set; split <;> rfl

/-- Setting a byte is seen at its index alone, and only within the block. -/
theorem get?_set (b : Block) (i j : Nat) (v : Byte) :
    (b.set i v).get? j = if i = j ∧ j < b.size then some v else b.get? j := by
  unfold set
  split
  · next hi =>
    by_cases hj : j < b.size
    · simp only [get?, hj, if_true, and_true]
      rw [Cells.get_set _ _ _ _ _ (lt_reach_depth hi) (lt_reach_depth hj)]
      split <;> rfl
    · simp [get?, hj]
  · next hi =>
    have : ¬ (i = j ∧ j < b.size) := by omega
    simp [this]

def setAll (b : Block) (i : Nat) : List Byte → Block
  | [] => b
  | v :: rest => setAll (b.set i v) (i + 1) rest

@[simp] theorem size_setAll (b : Block) (i : Nat) (vs : List Byte) :
    (b.setAll i vs).size = b.size := by
  induction vs generalizing b i with
  | nil => rfl
  | cons v vs ih => simp [setAll, ih]

def ofList (bytes : List Byte) : Block := (zeros bytes.length).setAll 0 bytes

/-- The first bytes of a block, at most as many as it has. -/
def take (b : Block) (n : Nat) : List Byte := (List.range (min n b.size)).map b.cells.get

def toList (b : Block) : List Byte := b.take b.size

/-- The bytes of a block up to the last written one that is not zero. -/
def written (b : Block) : List Byte := b.take (b.cells.extent b.depth)

/-! ## Words in a block -/

/-- The word whose four bytes start at an index, if they all exist. -/
def word? (b : Block) (i : Nat) : Option Word := do
  let b0 ← b.get? i
  let b1 ← b.get? (i + 1)
  let b2 ← b.get? (i + 2)
  let b3 ← b.get? (i + 3)
  pure (Word.ofBytes b0 b1 b2 b3)

/-- Put the four bytes of a word from an index, if they all fit. -/
def setWord? (b : Block) (i : Nat) (w : Word) : Option Block :=
  if i + 4 ≤ b.size then some (b.setAll i w.bytes) else none

end Block

end StackRisc
