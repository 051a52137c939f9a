import StackRisc.Proofs.Memory.ReadBack

/-!
# StackRisc.Proofs.Memory.StackView

The operand stack as the stack view of the memory shows it, against what is
popped from it.  Pops and the view go down from the top byte.  A popped word
has the top byte as its most significant one, a word that is read has it as
its least significant one:

* `OperandStack.bytes_afterPops` — what some pops leave;
* `OperandStack.popWord_of_le` — a word is popped as four bytes are;
* `OperandStack.read?_of_le` — a word in the view is a popped word, reversed;
* `Memory.stack_view` — what is read from a stack view, and what pops do.

A stack view behind regions that fill the address space has more bytes than
addresses, and what follows the last address is address 0
(`Memory.stack_view_wraps`).
-/

namespace StackRisc

/-- The word with the bytes of a word in reverse order. -/
def Word.reverseBytes (w : Word) : Word :=
  ofBytes (w.byteAt 3) (w.byteAt 2) (w.byteAt 1) (w.byteAt 0)

/-- Reversing a word reverses its four bytes. -/
theorem Word.reverseBytes_ofBytes (b0 b1 b2 b3 : Byte) :
    (ofBytes b0 b1 b2 b3).reverseBytes = ofBytes b3 b2 b1 b0 := by
  have hbytes := bytes_ofBytes b0 b1 b2 b3
  simp only [bytes, List.cons.injEq, and_true] at hbytes
  obtain ⟨h0, h1, h2, h3⟩ := hbytes
  rw [reverseBytes, h0, h1, h2, h3]

/-! ## Pops -/

namespace OperandStack

variable {s : OperandStack} {n : Nat}

/-- The stack after a number of bytes were popped, one after the other. -/
def afterPops (s : OperandStack) : (count : Nat) → OperandStack
  | 0 => s
  | count + 1 => (s.afterPops count).popByte.value.2

/-- The byte that is popped next, after a number of others. -/
def poppedAfter (s : OperandStack) (count : Nat) : Byte := (s.afterPops count).popByte.value.1

/-- Popping a byte of an empty stack gives zero. -/
theorem value_popByte (s : OperandStack) :
    s.popByte.value = (s.bytes.headD 0, ⟨s.bytes.tail⟩) := by
  obtain ⟨bytes⟩ := s
  cases bytes <;> rfl

/-- Pops take bytes from the top, as long as there are any. -/
theorem bytes_afterPops (s : OperandStack) (n : Nat) :
    (s.afterPops n).bytes = s.bytes.drop n := by
  induction n with
  | zero => rfl
  | succ n ih => rw [afterPops, value_popByte, ih, List.tail_drop]

/-- What is popped after some bytes is the byte behind them. -/
theorem poppedAfter_eq (s : OperandStack) (n : Nat) : s.poppedAfter n = s.bytes.getD n 0 := by
  rw [poppedAfter, value_popByte, bytes_afterPops, List.headD_eq_head?_getD, List.head?_drop,
    List.getD_eq_getElem?_getD]

/-- A byte above the bottom is popped as it is found. -/
theorem getElem?_bytes (h : n < s.size) : s.bytes[n]? = some (s.poppedAfter n) := by
  rw [poppedAfter_eq, List.getD_eq_getElem?_getD, List.getElem?_eq_getElem h, Option.getD_some]

/-- A word is popped as four bytes are, the most significant one first. -/
theorem popWord_of_le (h : 4 ≤ s.size) :
    s.popWord = .quiet (Word.ofBytes (s.poppedAfter 3) (s.poppedAfter 2) (s.poppedAfter 1)
      (s.poppedAfter 0), s.afterPops 4) := by
  obtain ⟨bytes⟩ := s
  match bytes, h with
  | b3 :: b2 :: b1 :: b0 :: rest, _ => rfl

/-- A word is not popped from fewer than four bytes. -/
theorem popWord_of_lt (h : s.size < 4) :
    s.popWord = .noting (.error "Stack is empty" [("depth", toString s.size)]) (0, s) := by
  obtain ⟨bytes⟩ := s
  match bytes, h with
  | [], _ | [_], _ | [_, _], _ | [_, _, _], _ => rfl

/-- A byte is not popped from an empty stack. -/
theorem popByte_of_size_eq_zero (h : s.size = 0) :
    s.popByte = .noting (.error "Stack is empty") (0, s) := by
  obtain ⟨bytes⟩ := s
  obtain rfl : bytes = [] := List.length_eq_zero_iff.mp h
  rfl

/-- A word that was pushed is popped again. -/
theorem popWord_pushWord (s : OperandStack) (w : Word) :
    (s.pushWord w).popWord = .quiet (w, s) := by
  show Logged.quiet (Word.ofBytes (w.byteAt 0) (w.byteAt 1) (w.byteAt 2) (w.byteAt 3), s) = _
  rw [Word.ofBytes_byteAt]

/-! ## Words in the view -/

/-- Four bytes in the view are the word that is popped once those above are
gone, its bytes reversed. -/
theorem read?_of_le (h : n + 4 ≤ s.size) :
    Word.read? s.bytes n = some (s.afterPops n).popWord.value.1.reverseBytes := by
  have hsize : n + 4 ≤ s.bytes.length := h
  have hlength : 4 ≤ (s.afterPops n).bytes.length := by
    rw [bytes_afterPops, List.length_drop]
    omega
  rw [Word.read?, ← bytes_afterPops]
  generalize s.afterPops n = below at hlength ⊢
  obtain ⟨bytes⟩ := below
  match bytes, hlength with
  | b3 :: b2 :: b1 :: b0 :: rest, _ => exact congrArg some (Word.reverseBytes_ofBytes ..).symm

/-- Fewer than four bytes are no word in the view. -/
theorem read?_of_lt (h : s.size < n + 4) : Word.read? s.bytes n = none := by
  have hlength : (s.bytes.drop n).length < 4 := by
    rw [List.length_drop]
    have hsize : s.bytes.length < n + 4 := h
    omega
  rw [Word.read?]
  split
  · next hdrop =>
    rw [hdrop, List.length_cons, List.length_cons, List.length_cons, List.length_cons] at hlength
    omega
  · rfl

end OperandStack

/-! ## The view -/

namespace Region

variable {r : Region} {cpu : Cpu} {n : Nat}

/-- The stack view shows the byte that is popped once those above are gone. -/
theorem read8_of_stack (h : r.kind = .stack) (cpu : Cpu) (n : Nat) :
    r.read8 cpu n =
      if n < cpu.stack.size then .quiet (cpu.stack.poppedAfter n)
      else .noting (stackReadEvent cpu n) 0 := by
  rw [read8, h]
  by_cases hn : n < cpu.stack.size
  · simp only [cpu.stack.getElem?_bytes hn, if_pos hn]
  · have hnone : cpu.stack.bytes[n]? = none := List.getElem?_eq_none (Nat.not_lt.mp hn)
    simp only [hnone, if_neg hn]

/-- The stack view shows the word that is popped once the bytes above are gone,
its bytes reversed. -/
theorem read32_of_stack (h : r.kind = .stack) (cpu : Cpu) (n : Nat) :
    r.read32 cpu n =
      if n + 4 ≤ cpu.stack.size then .quiet (cpu.stack.afterPops n).popWord.value.1.reverseBytes
      else .noting (stackReadEvent cpu n) 0 := by
  rw [read32, h]
  by_cases hn : n + 4 ≤ cpu.stack.size
  · simp only [cpu.stack.read?_of_le hn, if_pos hn]
  · simp only [cpu.stack.read?_of_lt (Nat.not_le.mp hn), if_neg hn]

end Region

namespace Memory

/-- What a readable stack view shows, wherever it is in the address map and
whatever was pushed and popped before: as many pops later the same byte, or
the same word with its bytes reversed, and zero below the bottom of the stack.
Only addresses of the view count.  Besides, a pushed word is popped again, a
popped word is four popped bytes, the most significant one first, and where
there are too few bytes a pop takes none. -/
theorem stack_view {m : Memory} {index : Nat} {r : Region} {base : Address} (cpu : Cpu)
    (hr : m.regions[index]? = some r) (hkind : r.kind = .stack)
    (hread : r.permissions.read = true) (hbase : base.toNat = m.start index) :
    (∀ i < r.size, base.toNat + i < UInt32.size →
      m.read8 cpu (base + UInt32.ofNat i) =
        if i < cpu.stack.size then .quiet (cpu.stack.poppedAfter i)
        else .noting (Region.stackReadEvent cpu i) 0) ∧
    (∀ i, i + 4 ≤ r.size → base.toNat + i < UInt32.size →
      m.read32 cpu (base + UInt32.ofNat i) =
        if i + 4 ≤ cpu.stack.size then
          .quiet (.ok (cpu.stack.afterPops i).popWord.value.1.reverseBytes)
        else .noting (Region.stackReadEvent cpu i) (.ok 0)) ∧
    (∀ w, (cpu.stack.pushWord w).popWord = .quiet (w, cpu.stack)) ∧
    (4 ≤ cpu.stack.size → cpu.stack.popWord =
      .quiet (Word.ofBytes (cpu.stack.poppedAfter 3) (cpu.stack.poppedAfter 2)
        (cpu.stack.poppedAfter 1) (cpu.stack.poppedAfter 0), cpu.stack.afterPops 4)) ∧
    (cpu.stack.size = 0 → cpu.stack.popByte.value = (0, cpu.stack)) ∧
    (cpu.stack.size < 4 → cpu.stack.popWord.value = (0, cpu.stack)) := by
  have howns : ∀ i < r.size, base.toNat + i < UInt32.size →
      m.Owns (base + UInt32.ofNat i) ⟨index, r, i⟩ := fun i hi hroom =>
    ⟨hr, by rw [toNat_add_ofNat hroom, hbase], hi⟩
  refine ⟨fun i hi hroom => ?_, fun i hi hroom => ?_, cpu.stack.popWord_pushWord,
    OperandStack.popWord_of_le, fun h => ?_, fun h => ?_⟩
  · rw [read8_eq_of_owns (howns i hi hroom) hread]
    exact Region.read8_of_stack hkind cpu i
  · rw [read32_eq_of_owns (howns i (by omega) hroom) hread hi, Region.read32_of_stack hkind]
    split <;> rfl
  · rw [OperandStack.popByte_of_size_eq_zero h]
    rfl
  · rw [OperandStack.popWord_of_lt h]
    rfl

/-- A stack view behind some RAM. -/
def behindBank : Memory := ⟨[.ram 4, .stack 16]⟩

/-- A processor that has pushed a byte, a word and a byte. -/
def mixedPushes : Cpu where
  stack := ((({} : OperandStack).pushByte 0x55).pushWord 0x11223344).pushByte 0xaa

/-- The byte and the word on top are read through memory; a word across the end
of what was pushed, and a byte behind it, are zero. -/
theorem stack_view_mixed :
    (behindBank.regions[1]? = some (.stack 16) ∧ (Region.stack 16).kind = .stack ∧
      (Region.stack 16).permissions.read = true ∧ (4 : Address).toNat = behindBank.start 1) ∧
    behindBank.read8 mixedPushes 4 = .quiet 0xaa ∧
      behindBank.read32 mixedPushes 5 = .quiet (.ok 0x44332211) ∧
      behindBank.read32 mixedPushes 7 = .noting (Region.stackReadEvent mixedPushes 3) (.ok 0) ∧
      behindBank.read8 mixedPushes 10 = .noting (Region.stackReadEvent mixedPushes 6) 0 ∧
      mixedPushes.stack.popWord.value.1 = 0xaa112233 := by
  obtain ⟨hbytes, hwords, -, hpop, -, -⟩ :=
    @stack_view behindBank 1 _ 4 mixedPushes rfl rfl rfl rfl
  refine ⟨⟨rfl, rfl, rfl, rfl⟩, hbytes 0 (by decide) (by decide), hwords 1 (by decide) (by decide),
    hwords 3 (by decide) (by decide), hbytes 6 (by decide) (by decide), ?_⟩
  rw [hpop (by decide)]
  rfl

/-- A stack view that starts at the last address, behind a page that takes all
others. -/
def viewAtLastAddress : Memory := ⟨[.systemPage 4294967295, .stack 16]⟩

/-- Only the first byte of that view has an address: what follows is address 0,
which is the low byte of the program counter, and not the second byte popped. -/
theorem stack_view_wraps :
    viewAtLastAddress.regions[1]? = some (.stack 16) ∧ (Region.stack 16).kind = .stack ∧
    (Region.stack 16).permissions.read = true ∧
    viewAtLastAddress.baseOf? .stack = some 4294967295 ∧ 1 < (Region.stack 16).size ∧
    let cpu : Cpu := { stack := (({} : OperandStack).pushByte 0x22).pushByte 0x11 }
    1 < cpu.stack.size ∧ cpu.stack.poppedAfter 1 = 0x22 ∧
      viewAtLastAddress.read8 cpu 4294967295 = .quiet 0x11 ∧
      viewAtLastAddress.read8 cpu (4294967295 + 1) = .quiet 0xfc :=
  ⟨rfl, rfl, rfl, rfl, by decide, by decide, rfl, rfl, rfl⟩

end Memory

end StackRisc
