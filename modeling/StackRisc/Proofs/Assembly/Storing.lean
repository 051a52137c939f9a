import StackRisc.Proofs.Assembly.Loading
import StackRisc.Proofs.Assembly.Operands
import StackRisc.Proofs.Computer.MacroStore

/-!
# StackRisc.Proofs.Assembly.Storing

The lines that store a value at an address, from the source to the machine that
steps through them.  `STR A B` and `PG B`, which stores at 0, are laid out as
four instructions, and a machine that has come to the first of them stores in
four steps, if it can read its ROM and has addresses for all twelve bytes:

* `SourceLine.Stores` — the lines, and `SourceLine.Stores.entry_eq` — what they
  are expanded to;
* `Assembles.image_store` — where their code is in the image;
* `Computer.AtOffset` — a machine about to execute a byte of an image;
* `storesInFour_of_assemble` — all of it for a source;
* `Computer.AtOffset.not_storesInFour`, `Computer.not_storesInFour_past_addresses` —
  that each of the two conditions is needed.
-/

namespace StackRisc

/-! ## Lines -/

/-- A line stores a value, at an address or at 0. -/
inductive SourceLine.Stores (line : SourceLine) : Option Lexeme → Lexeme → Prop
  /-- The line is `STR A B`, with or without a label. -/
  | str {mark : Option Lexeme} {mnemonic address value : Lexeme}
      (hread : Statement.read? line.text = some (.instruction mark mnemonic [address, value]))
      (hname : mnemonic.text = "STR") : Stores line (some address) value
  /-- The line is `PG B`, with or without a label. -/
  | page {mark : Option Lexeme} {mnemonic value : Lexeme}
      (hread : Statement.read? line.text = some (.instruction mark mnemonic [value]))
      (hname : mnemonic.text = "PG") : Stores line none value

/-- The address of a store as it is written, or 0. -/
def Literal.ofAddress? : Option Lexeme → Option Literal
  | some address => Literal.read? address.text.toList
  | none => some (.hex 0)

/-- An operand is read from the text of its token. -/
theorem Expansion.literal_of_operand {line : SourceLine} {token : Lexeme} {operand : Operand}
    (h : Expansion.operand line token = .ok operand) :
    Literal.read? token.text.toList = some operand.literal := by
  unfold Expansion.operand at h
  split at h
  · next literal hread =>
    rw [hread, ← Except.ok.inj h]
  · contradiction

/-- A line that stores stands for the four instructions of a store. -/
theorem SourceLine.Stores.entry_eq {line : SourceLine} {address? : Option Lexeme} {value : Lexeme}
    {entry : SourceEntry} (h : line.Stores address? value)
    (hentry : SourceEntry.ofLine? line = some entry) :
    ∃ mark A B, Literal.ofAddress? address? = some A.literal ∧
      Literal.read? value.text.toList = some B.literal ∧
        entry = .code mark (Expansion.storeImmediate A B) := by
  have hcode {mark : Option Lexeme} {mnemonic : Lexeme} {arguments : List Lexeme}
      (hread : Statement.read? line.text = some (.instruction mark mnemonic arguments)) :
      ∃ es, Expansion.expand line mnemonic arguments = .ok es ∧
        entry = .code (mark.map (·.text)) es := by
    rw [SourceEntry.ofLine?, hread, Option.bind_some, SourceEntry.ofStatement?] at hentry
    split at hentry
    · next es hes => exact ⟨es, hes, (Option.some.inj hentry).symm⟩
    · contradiction
  cases h with
  | @str _ _ address _ hread hname =>
      obtain ⟨es, hexpand, rfl⟩ := hcode hread
      have hother : ¬ "STR" = "PG" := by decide
      have hop : Opcode.ofName? "STR" = some .str := Opcode.ofName?_mnemonic .str
      simp only [Expansion.expand, hname, if_neg hother, hop] at hexpand
      obtain ⟨A, hA, hexpand⟩ := Except.bind_eq_ok_iff.mp hexpand
      obtain ⟨B, hB, hexpand⟩ := Except.bind_eq_ok_iff.mp hexpand
      obtain rfl := Except.ok.inj hexpand
      exact ⟨_, A, B, Expansion.literal_of_operand hA, Expansion.literal_of_operand hB, rfl⟩
  | page hread hname =>
      obtain ⟨es, hexpand, rfl⟩ := hcode hread
      simp only [Expansion.expand, hname, if_true] at hexpand
      obtain ⟨B, hB, hexpand⟩ := Except.bind_eq_ok_iff.mp hexpand
      obtain rfl := Except.ok.inj hexpand
      exact ⟨_, ⟨.hex 0, line.span⟩, B, rfl, Expansion.literal_of_operand hB, rfl⟩

/-! ## Code -/

/-- The load of an operand loads the number that it stands for. -/
theorem SourceProgram.Means.exists_ldi {p : SourceProgram} {operand : Operand} {i : Instruction}
    (h : p.Means ⟨.ldi, some operand⟩ i) :
    ∃ v, p.bindings.Denotes operand.literal v ∧ (0 ≤ v ∧ v ≤ Word.largest) ∧
      i = .ldi (Int32.ofInt v) := by
  cases h with
  | withOperand hv h0 h1 => exact ⟨_, hv, ⟨h0, h1⟩, rfl⟩

/-- The code of a store is in the image, behind that of the entries before it. -/
theorem Assembles.image_store {front rest : SourceProgram} {mark : Option String} {A B : Operand}
    {is : List Instruction} {a : Assembly}
    (h : Assembles (front ++ .code mark (Expansion.storeImmediate A B) :: rest) is a) :
    ∃ v w before behind,
      (SourceProgram.bindings (front ++ .code mark (Expansion.storeImmediate A B) :: rest)).Denotes
        A.literal v ∧
      (SourceProgram.bindings (front ++ .code mark (Expansion.storeImmediate A B) :: rest)).Denotes
        B.literal w ∧
      (0 ≤ v ∧ v ≤ Word.largest) ∧ (0 ≤ w ∧ w ≤ Word.largest) ∧ before.length = front.size ∧
      a.image = before ++ ([Instruction.ldi (Int32.ofInt w), .push, .ldi (Int32.ofInt v),
        .str].flatMap Instruction.encode ++ behind) := by
  have hmeans := h.means
  have hemissions : SourceProgram.emissions
      (front ++ .code mark (Expansion.storeImmediate A B) :: rest) =
        front.emissions ++ (Expansion.storeImmediate A B ++ rest.emissions) := by
    rw [SourceProgram.emissions_append]
    rfl
  rw [hemissions] at hmeans
  obtain ⟨is₁, i₁, is₂, rfl, hbefore, h₁, hbehind⟩ := SourceProgram.exists_of_forall₂_append hmeans
  obtain ⟨w, hw, hwrange, rfl⟩ := h₁.exists_ldi
  -- What is pushed and what stores has no operand, so there is nothing else that it stands for.
  obtain _ | ⟨⟨⟩, hbehind⟩ := hbehind
  obtain _ | ⟨h₃, hbehind⟩ := hbehind
  obtain ⟨v, hv, hvrange, rfl⟩ := h₃.exists_ldi
  obtain _ | @⟨_, _, _, is₄, ⟨⟩, -⟩ := hbehind
  obtain ⟨zeros, hzeros⟩ : ∃ zeros, a.image = _ ++ zeros := ⟨_, h.image⟩
  refine ⟨v, w, is₁.flatMap Instruction.encode, is₄.flatMap Instruction.encode ++ zeros, hv, hw,
    hvrange, hwrange, SourceProgram.length_flatMap_encode hbefore, ?_⟩
  rw [hzeros]
  simp [Instruction.ofOpcode]

/-! ## Machines -/

/-- The ROM of a layout is behind the other regions, whatever it grants. -/
theorem Memory.owns_rom {layout : Layout} {image : List Byte} {permissions : Permissions}
    {m : Memory} {address : Address} {n : Nat}
    (h : (ofLayout layout image).setPermissions? .rom permissions = some m)
    (haddress : address.toNat = layout.total + n) (hn : n < (Region.rom image).size) :
    m.Owns address ⟨4, { Region.rom image with permissions }, n⟩ := by
  obtain rfl := Option.some.inj h
  refine ⟨rfl, ?_, hn⟩
  rw [haddress]
  simp [start, Layout.total, Region.ram, Region.vram, Region.systemPage, Region.stack,
    Nat.add_assoc]

namespace Computer

variable {c : Computer} {image front bytes rest : List Byte} {n : Nat}

/-- A machine with an image in its ROM is about to execute a byte of it. -/
def AtOffset (c : Computer) (image : List Byte) (n : Nat) : Prop :=
  ∃ l, c.memory.Owns c.cpu.registers.pc l ∧ l.region.kind = .rom ∧
    l.region.size = image.length ∧ l.region.block.toList = image ∧ l.offset = n

/-- What is in the image is code for a machine that can read its ROM. -/
theorem AtOffset.code (h : c.AtOffset image front.length)
    (himage : image = front ++ (bytes ++ rest))
    (hread : ∃ l, c.memory.locate c.cpu.registers.pc .read = .ok l) :
    c.memory.Code c.cpu.registers.pc bytes := by
  obtain ⟨l, hl, hkind, hsize, hbytes, hoffset⟩ := h
  obtain ⟨l', hl'⟩ := hread
  obtain ⟨howns, hgranted⟩ := Memory.locate_eq_ok_iff.mp hl'
  obtain rfl := hl.unique howns
  rw [himage, List.length_append, List.length_append] at hsize
  refine ⟨l, hl, hgranted, hkind, by omega, fun k hk => ?_⟩
  rw [← Block.getElem?_toList, hbytes, hoffset, himage, List.getElem?_append_right (by omega),
    Nat.add_sub_cancel_left, List.getElem?_append_left hk]

end Computer

/-- The store macro stores.  In every source that is accepted the operands of
every line `STR A B`, or of `PG B` with the address 0, stand for numbers in
range.  Every machine that has come to the code of the line, that can read its
ROM and has an address for each of the twelve bytes, comes in four steps to one
write of the value at the address, both cut to the width, unless that address
is writable in the system page. -/
theorem storesInFour_of_assemble {source : String} {a : Assembly}
    {before after : List SourceLine} {line : SourceLine} {address? : Option Lexeme}
    {value : Lexeme} (ha : (assemble source).value = .ok a)
    (hlines : SourceLine.ofSource source = before ++ line :: after)
    (hline : line.Stores address? value) :
    ∃ p front A B v w, SourceProgram.ofSource? source = some p ∧
      SourceProgram.ofLines? before = some front ∧
      Literal.ofAddress? address? = some A ∧ Literal.read? value.text.toList = some B ∧
      p.bindings.Denotes A v ∧ p.bindings.Denotes B w ∧
      (0 ≤ v ∧ v ≤ Word.largest) ∧ (0 ≤ w ∧ w ≤ Word.largest) ∧
      ∀ c : Computer, c.AtOffset a.image front.size →
        (∃ l, c.memory.locate c.cpu.registers.pc .read = .ok l) →
        c.cpu.registers.pc.toNat + 12 ≤ UInt32.size →
        (∀ l, c.memory.locate (c.cpu.width.kept (Int32.ofInt v)).toAddress .write = .ok l →
          l.region.kind ≠ .systemPage) →
        c.StoresInFour (Int32.ofInt v) (Int32.ofInt w) := by
  obtain ⟨p, is, hp, h⟩ := assembles_of_assemble ha
  have hsplit := hp
  rw [SourceProgram.ofSource?, hlines, SourceProgram.ofLines?_append] at hsplit
  obtain ⟨front, hfront, hsplit⟩ := Option.bind_eq_some_iff.mp hsplit
  obtain ⟨_, hrest, rfl⟩ := Option.map_eq_some_iff.mp hsplit
  obtain ⟨entry, hentry, hrest⟩ := Option.bind_eq_some_iff.mp hrest
  obtain ⟨rest, -, rfl⟩ := Option.map_eq_some_iff.mp hrest
  obtain ⟨mark, A, B, hA, hB, rfl⟩ := hline.entry_eq hentry
  obtain ⟨v, w, code, behind, hv, hw, hvrange, hwrange, hlength, himage⟩ := h.image_store
  refine ⟨_, front, A.literal, B.literal, v, w, hp, hfront, hA, hB, hv, hw, hvrange, hwrange,
    fun c hc hread hroom hoff => ?_⟩
  rw [← hlength] at hc
  exact Computer.storesInFour_of_code (hc.code himage hread) hroom hoff

/-! ## Runs -/

namespace Computer

variable {c : Computer} {layout : Layout} {permissions : Permissions} {image : List Byte} {n : Nat}

theorem size_rom_padImage (h : image.length = programSize) :
    (Region.rom (padImage image)).size = programSize := by
  show min (padImage image).length (UInt32.size - 1) = programSize
  rw [length_padImage (Nat.le_of_eq h)]
  rfl

/-- A machine with an image of full size in its ROM, at an offset of it. -/
theorem atOffset_of_layout
    (hmemory : (Memory.ofLayout layout (padImage image)).setPermissions? .rom permissions =
      some c.memory)
    (hlength : image.length = programSize) (hpc : c.cpu.registers.pc.toNat = layout.total + n)
    (hn : n < programSize) : c.AtOffset image n := by
  have hpad : padImage image = image := by
    rw [padImage, hlength, Nat.sub_self, List.replicate_zero, List.append_nil]
  have hsize := size_rom_padImage hlength
  exact ⟨_, Memory.owns_rom hmemory hpc (by omega), rfl, hsize.trans hlength.symm,
    (Block.toList_ofList _).trans hpad, rfl⟩

end Computer

/-- A store in the middle of a program, of a variable, in the word width. -/
theorem storesInFour_of_assemble_variable :
    ∃ a, (assemble "x = #5\nldi #7\nstr #10 x").value = .ok a ∧
      ({ Computer.ofImage { files := .empty } a.image with
        cpu := { registers := { pc := 67108865 }, width := .word } }).StoresInFour 10 5 := by
  obtain ⟨a, ha⟩ : ∃ a, (assemble "x = #5\nldi #7\nstr #10 x").value = .ok a :=
    Except.exists_eq_ok_of_isOk (by decide +kernel)
  have hlines : SourceLine.ofSource "x = #5\nldi #7\nstr #10 x" =
      [⟨1, 0, "X = #5".toList⟩, ⟨2, 7, "LDI #7".toList⟩] ++
        ⟨3, 14, "STR #10 X".toList⟩ :: [] := by
    decide +kernel
  have hline : SourceLine.Stores ⟨3, 14, "STR #10 X".toList⟩ (some ⟨4, "#10"⟩) ⟨8, "X"⟩ :=
    @SourceLine.Stores.str _ none ⟨0, "STR"⟩ _ _ (by decide +kernel) rfl
  have hp' : SourceProgram.ofSource? "x = #5\nldi #7\nstr #10 x" =
      some [.definition "X" (.decimal 5), .code none [⟨.ldi, some ⟨.decimal 7, ⟨11, 2⟩⟩⟩],
        .code none
          (Expansion.storeImmediate ⟨.decimal 10, ⟨18, 3⟩⟩ ⟨.reference "X", ⟨22, 1⟩⟩)] := by
    decide +kernel
  have hfront' : SourceProgram.ofLines? [⟨1, 0, "X = #5".toList⟩, ⟨2, 7, "LDI #7".toList⟩] =
      some [.definition "X" (.decimal 5), .code none [⟨.ldi, some ⟨.decimal 7, ⟨11, 2⟩⟩⟩]] := by
    decide +kernel
  have hread : Literal.ofAddress? (some ⟨4, "#10"⟩) = some (.decimal 10) ∧
      Literal.read? "X".toList = some (.reference "X") := by
    decide +kernel
  obtain ⟨p, front, A, B, v, w, hp, hfront, hA, hB, hv, hw, -, -, hstores⟩ :=
    storesInFour_of_assemble ha hlines hline
  obtain rfl := Option.some.inj (hp.symm.trans hp')
  obtain rfl := Option.some.inj (hfront.symm.trans hfront')
  obtain rfl := Option.some.inj (hA.symm.trans hread.1)
  obtain rfl := Option.some.inj (hB.symm.trans hread.2)
  obtain rfl := hv.unique (Bindings.denotes_decimal _ 10)
  obtain rfl : w = 5 := hw.unique ⟨["X"], .decimal 5, .step rfl (.refl _), rfl⟩
  have hlength : a.image.length = programSize := by
    obtain ⟨_, _, _, h⟩ := assembles_of_assemble ha
    exact h.length_image
  refine ⟨a, ha, hstores _ ?_ ⟨_, Memory.locate_rom (n := 5) rfl ?_⟩ ?_ ?_⟩
  · exact Computer.atOffset_of_layout rfl hlength rfl (by decide)
  · rw [Computer.size_rom_padImage hlength]
    decide
  · show (67108865 : Address).toNat + 12 ≤ UInt32.size
    decide
  · intro l hl
    obtain rfl : ⟨0, .ram 16777215, 10⟩ = l := Except.ok.inj hl
    exact nofun

/-! ## Machines that do not store -/

namespace Memory

variable {m : Memory} {a : Address} {l : Location}

/-- Zeros are read from an address on, as an opcode and its operand. -/
def ReadsZeros (m : Memory) (a : Address) : Prop :=
  ∀ cpu, (m.read8 cpu a).value = 0 ∧ (m.read32 cpu (a + 1)).value = .ok 0

/-- Where reading is denied zeros are read. -/
theorem readsZeros_of_denied (h : m.Owns a l) (hread : l.region.permissions.read = false)
    (hnext : l.offset + 1 < l.region.size) (hroom : a.toNat + 1 < UInt32.size) :
    m.ReadsZeros a := by
  intro cpu
  have hdenied : Access.read.grantedBy l.region.permissions = false := hread
  have hsecond : m.Owns (a + 1) { l with offset := l.offset + 1 } := h.shift hnext hroom
  constructor
  · rw [read8, locate_of_owns h, hdenied]
    rfl
  · rw [read32, locate_of_owns hsecond, hdenied]
    rfl

end Memory

namespace Computer

variable {c : Computer} {cpu : Cpu} {memory : Memory} {size n : Nat} {address value : Word}

/-- Where zeros are read, a branch to the start of the program is decoded. -/
theorem instructionAt_of_readsZeros {a : Address} (h : c.memory.ReadsZeros a) :
    (c.instructionAt a).value = .ok (.bge 0) := by
  have hcode : Opcode.ofByte? 0 = some .bge := rfl
  have hop : Opcode.bge.hasOperand = true := rfl
  obtain ⟨hopcode, hoperand⟩ := h c.cpu
  simp only [instructionAt, hopcode, hcode, hop, if_true, hoperand]
  rfl

/-- Where zeros are read a branch is executed that is not taken. -/
theorem stepsTo_zeros
    (hzeros : memory.ReadsZeros (c.cpu.registers.pc + UInt32.ofNat size))
    (hcarry : cpu.registers.carry = 0) :
    (c.behind size n memory cpu).StepsTo (c.behind (size + 5) (n + 1) memory cpu) := by
  refine stepsTo_behind rfl (instructionAt_of_readsZeros hzeros) (Action.ends_branch.mpr ?_)
  have hnot : ¬ (c.behind size n memory cpu).cpu.registers.carry = 1 := by
    show ¬ cpu.registers.carry = 1
    rw [hcarry]
    decide
  rw [if_neg hnot]
  exact ⟨rfl, rfl⟩

/-- A machine does not store that reads zeros behind its first step. -/
theorem not_storesInFour (hfirst : c.StepsTo (c.behind 5 1 c.memory cpu))
    (hcarry : cpu.registers.carry = 0)
    (hzeros : ∀ k ∈ [5, 10, 15], c.memory.ReadsZeros (c.cpu.registers.pc + UInt32.ofNat k)) :
    ¬ c.StoresInFour address value := by
  simp only [List.forall_mem_cons] at hzeros
  obtain ⟨hzeros₁, hzeros₂, hzeros₃, -⟩ := hzeros
  obtain ⟨-, hsame₁⟩ := hfirst.after (c := c) (k := 0) (.refl c)
  obtain ⟨-, hsame₂⟩ := (stepsTo_zeros hzeros₁ hcarry).after hsame₁
  obtain ⟨-, hsame₃⟩ := (stepsTo_zeros hzeros₂ hcarry).after hsame₂
  obtain ⟨hok, hsame₄⟩ := (stepsTo_zeros hzeros₃ hcarry).after hsame₃
  intro hstores
  unfold StoresInFour at hstores
  split at hstores
  · obtain ⟨-, -, hcpu, -⟩ := hstores
    have hpc : c.cpu.registers.pc + 12 = c.cpu.registers.pc + UInt32.ofNat 20 :=
      congrArg (·.registers.pc) (hcpu.symm.trans hsame₄.cpu_eq)
    exact absurd ((UInt32.add_right_inj _).mp hpc) (by decide)
  · rw [hok] at hstores
    exact absurd hstores.2.1 nofun

/-- A machine that cannot read its ROM does not store. -/
theorem AtOffset.not_storesInFour {image : List Byte} {offset : Nat} (h : c.AtOffset image offset)
    (hdenied : ∀ l, c.memory.locate c.cpu.registers.pc .read ≠ .ok l)
    (hinside : offset + 16 < image.length) (hroom : c.cpu.registers.pc.toNat + 16 < UInt32.size)
    (hcarry : c.cpu.registers.carry = 0) : ¬ c.StoresInFour address value := by
  obtain ⟨l, hl, -, hsize, -, rfl⟩ := h
  have hread : l.region.permissions.read = false := by
    rw [← Bool.not_eq_true]
    exact fun hgranted => hdenied l (Memory.locate_eq_ok_iff.mpr ⟨hl, hgranted⟩)
  have hzeros : ∀ k ≤ 15, c.memory.ReadsZeros (c.cpu.registers.pc + UInt32.ofNat k) := by
    intro k hk
    have hshift := hl.shift (i := k) (by omega) (by omega)
    have haddress := toNat_add_ofNat (a := c.cpu.registers.pc) (i := k) (by omega)
    refine Memory.readsZeros_of_denied hshift hread ?_ (by omega)
    show l.offset + k + 1 < l.region.size
    omega
  have hfirst : (c.behind 0 0 c.memory c.cpu).StepsTo (c.behind 5 1 c.memory c.cpu) :=
    stepsTo_zeros (hzeros 0 (Nat.zero_le 15)) hcarry
  rw [behind_zero] at hfirst
  refine Computer.not_storesInFour hfirst hcarry ?_
  simp only [List.forall_mem_cons]
  exact ⟨hzeros 5 (by decide), hzeros 10 (by decide), hzeros 15 (by decide), nofun⟩

/-- A machine with an image in its ROM, which grants some accesses. -/
def storing (layout : Layout) (permissions : Permissions) (image : List Byte) : Computer :=
  let c := ofImage { layout, files := .empty } image
  { c with memory := (c.memory.setPermissions? .rom permissions).getD c.memory }

variable {image rest : List Byte}

/-- The last four addresses are not enough for the code of a store: its first
instruction is read to its end, behind it come the zeros of the RAM. -/
theorem not_storesInFour_past_addresses (hlength : image.length = programSize)
    (himage : image = [] ++
      ([Instruction.ldi value, .push, .ldi address, .str].flatMap Instruction.encode ++ rest)) :
    ¬ (storing ⟨64, 0, 4294967228, 0⟩ ⟨true, false, true⟩ image).StoresInFour address value := by
  let c := storing ⟨64, 0, 4294967228, 0⟩ ⟨true, false, true⟩ image
  have hpc : c.cpu.registers.pc = 4294967292 := rfl
  have hoffset : c.AtOffset image 0 := atOffset_of_layout rfl hlength rfl (by decide)
  have hread : ∃ l, c.memory.locate c.cpu.registers.pc .read = .ok l := by
    refine ⟨_, Memory.locate_rom (n := 0) rfl ?_⟩
    rw [size_rom_padImage hlength]
    decide
  have hfirst : (c.behind 0 0 c.memory c.cpu).StepsTo
      (c.behind 5 1 c.memory (c.cpu.setAccumulator value)) := by
    refine stepsTo_ldi (instructionAt_of_code (hoffset.code himage hread) fun _ => ?_)
    rw [hpc]
    decide
  rw [behind_zero] at hfirst
  have hram : ∀ a ∈ [1, 6, 11], c.memory.ReadsZeros a := by
    simp only [List.forall_mem_cons]
    exact ⟨fun _ => ⟨rfl, rfl⟩, fun _ => ⟨rfl, rfl⟩, fun _ => ⟨rfl, rfl⟩, nofun⟩
  have hpast : ∀ k ∈ [5, 10, 15], 4294967292 + UInt32.ofNat k ∈ [1, 6, 11] := by decide
  refine Computer.not_storesInFour hfirst rfl fun k hk => ?_
  rw [hpc]
  exact hram _ (hpast k hk)

/-- Without permission to read the ROM there is no store. -/
theorem not_storesInFour_denied (hlength : image.length = programSize) :
    ¬ (storing {} ⟨false, false, true⟩ image).StoresInFour address value := by
  let c := storing {} ⟨false, false, true⟩ image
  have hpc : c.cpu.registers.pc.toNat = 67108860 := rfl
  have hoffset : c.AtOffset image 0 := atOffset_of_layout rfl hlength rfl (by decide)
  have hinside : 0 < (Region.rom (padImage image)).size := by
    rw [size_rom_padImage hlength]
    decide
  have howns : c.memory.Owns c.cpu.registers.pc
      ⟨4, { Region.rom (padImage image) with permissions := ⟨false, false, true⟩ }, 0⟩ :=
    Memory.owns_rom rfl rfl hinside
  refine hoffset.not_storesInFour ?_ ?_ ?_ rfl
  · rw [Memory.locate_of_owns howns]
    exact nofun
  · rw [hlength]
    decide
  · rw [hpc]
    decide

end Computer

/-- A machine does not store if it has no addresses for all of the code, or if
it cannot read its ROM: zeros are read instead. -/
theorem not_storesInFour_out_of_reach :
    ∃ a, (assemble "str #10 #5\nhlt").value = .ok a ∧
      ∀ c ∈ [Computer.storing ⟨64, 0, 4294967228, 0⟩ ⟨true, false, true⟩ a.image,
        Computer.storing {} ⟨false, false, true⟩ a.image],
        c.AtOffset a.image 0 ∧
        (∀ l, c.memory.locate (c.cpu.width.kept 10).toAddress .write = .ok l →
          l.region.kind ≠ .systemPage) ∧
        ¬ c.StoresInFour 10 5 := by
  obtain ⟨a, ha⟩ : ∃ a, (assemble "str #10 #5\nhlt").value = .ok a :=
    Except.exists_eq_ok_of_isOk (by decide +kernel)
  have hp' : SourceProgram.ofSource? "str #10 #5\nhlt" =
      some [.code none (Expansion.storeImmediate ⟨.decimal 10, ⟨4, 3⟩⟩ ⟨.decimal 5, ⟨8, 2⟩⟩),
        .code none [⟨.hlt, none⟩]] := by
    decide +kernel
  obtain ⟨p, is, hp, h⟩ := assembles_of_assemble ha
  obtain rfl := Option.some.inj (hp.symm.trans hp')
  obtain ⟨v, w, before, behind, hv, hw, -, -, hbefore, himage⟩ :=
    @Assembles.image_store [] _ _ _ _ _ _ h
  obtain rfl := hv.unique (Bindings.denotes_decimal _ 10)
  obtain rfl := hw.unique (Bindings.denotes_decimal _ 5)
  obtain rfl : before = [] := List.length_eq_zero_iff.mp hbefore
  refine ⟨a, ha, List.forall_mem_cons.mpr
    ⟨⟨?_, fun l hl => ?_, Computer.not_storesInFour_past_addresses h.length_image himage⟩,
      List.forall_mem_singleton.mpr
        ⟨?_, fun l hl => ?_, Computer.not_storesInFour_denied h.length_image⟩⟩⟩
  · exact Computer.atOffset_of_layout rfl h.length_image rfl (by decide)
  · obtain rfl : ⟨0, .ram 64, 10⟩ = l := Except.ok.inj hl
    exact nofun
  · exact Computer.atOffset_of_layout rfl h.length_image rfl (by decide)
  · obtain rfl : ⟨0, .ram 16777215, 10⟩ = l := Except.ok.inj hl
    exact nofun

end StackRisc
