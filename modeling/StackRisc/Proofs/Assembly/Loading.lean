import StackRisc.Proofs.Assembly.SecondPass
import StackRisc.Proofs.Memory.Rom

/-!
# StackRisc.Proofs.Assembly.Loading

From the assembler through the loader to the decoder: what a source emits is
what the machine decodes at the same offsets, and a label leads to the last
instruction of its line.

* `Expansion.expand_eq_ok` — a line stands for one instruction or stores a
  value;
* `SourceProgram.label?_of_code` — where the label of a line points;
* `Assembles.instructionAt` — every instruction of a loaded assembly;
* `instructionAt_of_assemble` — all of it for a source.
-/

namespace StackRisc

/-! ## Lines and what they stand for -/

/-- A line stands for one instruction, or it stores a value at an address. -/
theorem Expansion.expand_eq_ok {line : SourceLine} {mnemonic : Lexeme} {arguments : List Lexeme}
    {es : List Emission} (h : expand line mnemonic arguments = .ok es) :
    (∃ e, es = [e]) ∨ ∃ address value, es = storeImmediate address value := by
  unfold expand at h
  split at h
  · split at h
    · obtain ⟨value, -, h⟩ := Except.bind_eq_ok_iff.mp h
      exact .inr ⟨_, value, (Except.ok.inj h).symm⟩
    · cases h
  · split at h
    · cases h
    · split at h
      · exact .inl ⟨_, (Except.ok.inj h).symm⟩
      · obtain ⟨address, -, h⟩ := Except.bind_eq_ok_iff.mp h
        obtain ⟨value, -, h⟩ := Except.bind_eq_ok_iff.mp h
        exact .inr ⟨address, value, (Except.ok.inj h).symm⟩
      · cases h
    · split at h
      · split at h
        · obtain ⟨value, -, h⟩ := Except.bind_eq_ok_iff.mp h
          exact .inl ⟨_, (Except.ok.inj h).symm⟩
        · cases h
      · split at h
        · exact .inl ⟨_, (Except.ok.inj h).symm⟩
        · cases h

/-- The last instruction of a line; it stores if it is not the only one. -/
theorem Expansion.exists_getLast? {line : SourceLine} {mnemonic : Lexeme}
    {arguments : List Lexeme} {es : List Emission} (h : expand line mnemonic arguments = .ok es) :
    ∃ e, es.getLast? = some e ∧ (1 < es.length → e = ⟨.str, none⟩) := by
  rcases expand_eq_ok h with ⟨e, rfl⟩ | ⟨address, value, rfl⟩
  · exact ⟨e, rfl, fun hlt => absurd hlt (Nat.lt_irrefl 1)⟩
  · exact ⟨⟨.str, none⟩, rfl, fun _ => rfl⟩

namespace SourceProgram

variable {p front rest : SourceProgram} {mark : Option String} {es : List Emission} {name : String}

/-- The entries of a program come from its lines. -/
theorem exists_line_of_mem {lines : List SourceLine} (h : ofLines? lines = some p)
    {e : SourceEntry} (he : e ∈ p) : ∃ line, SourceEntry.ofLine? line = some e := by
  induction lines generalizing p with
  | nil =>
      cases h
      contradiction
  | cons line lines ih =>
      obtain ⟨e', he', h⟩ := Option.bind_eq_some_iff.mp h
      obtain ⟨q, hq, rfl⟩ := Option.map_eq_some_iff.mp h
      rcases List.mem_cons.mp he with rfl | he
      · exact ⟨line, he'⟩
      · exact ih hq he

/-- The instructions of an entry are those of its line. -/
theorem exists_expand_of_mem {source : String} (h : ofSource? source = some p)
    (he : .code mark es ∈ p) :
    ∃ line mnemonic arguments, Expansion.expand line mnemonic arguments = .ok es := by
  obtain ⟨line, hline⟩ := exists_line_of_mem h he
  obtain ⟨statement, -, hstatement⟩ := Option.bind_eq_some_iff.mp hline
  cases statement with
  | label name => cases hstatement
  | definition name value =>
      obtain ⟨literal, -, h⟩ := Option.map_eq_some_iff.mp hstatement
      contradiction
  | instruction label mnemonic arguments =>
      simp only [SourceEntry.ofStatement?] at hstatement
      split at hstatement
      · next hes =>
        cases hstatement
        exact ⟨line, mnemonic, arguments, hes⟩
      · contradiction

/-! ## Where labels point -/

/-- A label that is placed once is found. -/
theorem label?_of_mem (hdistinct : (p.labels.map Prod.fst).Nodup) {n : Nat}
    (h : (name, n) ∈ p.labels) : p.label? name = some n := by
  obtain ⟨l₁, l₂, hl⟩ := List.append_of_mem h
  refine List.lookup_eq_some_iff.mpr ⟨l₁, l₂, hl, fun x hx => ?_⟩
  rw [hl, List.map_append] at hdistinct
  rw [bne_iff_ne]
  intro heq
  exact (List.nodup_append.mp hdistinct).2.2 x.1 (List.mem_map_of_mem hx) name (by simp) heq.symm

/-- The label of a line, in front of it or on the line before, points to the
last instruction of the line. -/
theorem label?_of_code (hdistinct : ((front ++ .code mark es :: rest).labels.map Prod.fst).Nodup)
    (hname : mark.or (front.waitingAfter none) = some name) :
    (front ++ .code mark es :: rest).label? name = some (front.size + codeSize es.dropLast) := by
  refine label?_of_mem hdistinct ?_
  rw [labels_append, labelsFrom, SourceEntry.placed?, hname]
  simp

end SourceProgram

/-! ## Assemblies in memory -/

namespace Assembles

variable {p : SourceProgram} {is : List Instruction} {a : Assembly} {config : Config}

/-- The image of an assembly has the size of the ROM. -/
theorem length_image (h : Assembles p is a) : a.image.length = programSize := by
  rw [h.image, Instruction.image, List.length_append, List.length_replicate]
  exact Nat.add_sub_of_le h.length_le

/-- Every instruction of a loaded assembly is decoded at its offset. -/
theorem instructionAt (h : Assembles p is a)
    (hlayout : config.layout.total + programSize < UInt32.size)
    {before after : List Emission} {e : Emission} (he : p.emissions = before ++ e :: after) :
    ∃ i, p.Means e i ∧
      ((Computer.ofImage config a.image).instructionAt
        ((Computer.ofImage config a.image).memory.origin + UInt32.ofNat (codeSize before))).value =
          .ok i := by
  have hmeans := h.means
  rw [he] at hmeans
  obtain ⟨is₁, i, is₂, rfl, h₁, hi, -⟩ := SourceProgram.exists_of_forall₂_append hmeans
  obtain ⟨zeros, hzeros⟩ : ∃ zeros,
      a.image = (is₁ ++ i :: is₂).flatMap Instruction.encode ++ zeros := ⟨_, h.image⟩
  have himage : a.image = is₁.flatMap Instruction.encode ++ i.encode ++
      (is₂.flatMap Instruction.encode ++ zeros) := by
    rw [hzeros]
    simp
  refine ⟨i, hi, ?_⟩
  rw [← SourceProgram.length_flatMap_encode h₁]
  exact Computer.instructionAt_ofImage hlayout himage (Nat.le_of_eq h.length_image)

/-- The label of a line leads to the last instruction of the line, which
stores a value if the line stands for several. -/
theorem instructionAt_label {source : String} (h : Assembles p is a)
    (hp : SourceProgram.ofSource? source = some p)
    (hlayout : config.layout.total + programSize < UInt32.size)
    {front rest : SourceProgram} {mark : Option String} {es : List Emission} {name : String}
    (hcode : p = front ++ .code mark es :: rest)
    (hname : mark.or (front.waitingAfter none) = some name) :
    ∃ offset e i, a.symbols.labels.find? name = some offset ∧ es.getLast? = some e ∧
      p.Means e i ∧ (1 < es.length → i = .str) ∧
        ((Computer.ofImage config a.image).instructionAt
          ((Computer.ofImage config a.image).memory.origin + offset)).value = .ok i := by
  have hlabel : p.label? name = some (front.size + codeSize es.dropLast) := by
    have hdistinct := h.sound.distinct
    rw [hcode] at hdistinct ⊢
    exact SourceProgram.label?_of_code hdistinct hname
  have hmem : .code mark es ∈ p := by
    rw [hcode]
    simp
  obtain ⟨line, mnemonic, arguments, hexpand⟩ := SourceProgram.exists_expand_of_mem hp hmem
  obtain ⟨e, he, hstr⟩ := Expansion.exists_getLast? hexpand
  have hemissions : p.emissions = (front.emissions ++ es.dropLast) ++ e :: rest.emissions := by
    have hsplit := List.dropLast_append_getLast? e he
    have hrest : p.emissions = front.emissions ++ (es ++ rest.emissions) := by
      rw [hcode, SourceProgram.emissions_append]
      rfl
    rw [hrest, ← hsplit]
    simp
  obtain ⟨i, hi, hdecoded⟩ := h.instructionAt hlayout hemissions
  rw [codeSize_append] at hdecoded
  have hle : front.size + codeSize es.dropLast ≤ offsetLimit :=
    Nat.le_trans (SourceProgram.le_size_of_label? hlabel) h.fits
  refine ⟨UInt32.ofNat (front.size + codeSize es.dropLast), e, i, ?_, he, hi, ?_, hdecoded⟩
  · rw [h.labels, hlabel, Option.map_some, Draft.offsetAddress_eq hle]
  · intro hlt
    rw [hstr hlt] at hi
    cases hi with
    | bare => rfl

end Assembles

/-- The assembler, the loader and the decoder agree.  In every layout that
leaves room for the ROM, a loaded source is decoded to the instructions that
it stands for, each at the offset where it was laid out; and the label of a
line, in front of it or alone on the line before, leads to the last
instruction of the line. -/
theorem instructionAt_of_assemble {source : String} {a : Assembly} {config : Config}
    (ha : (assemble source).value = .ok a)
    (hlayout : config.layout.ram.toNat + config.layout.vram.toNat +
      config.layout.systemPage.toNat + config.layout.stack.toNat + programSize < UInt32.size) :
    ∃ c p, Computer.load config a.image = .ok c ∧ SourceProgram.ofSource? source = some p ∧
      (∀ before e after, p.emissions = before ++ e :: after →
        ∃ i, p.Means e i ∧
          (c.instructionAt (c.memory.origin + UInt32.ofNat (codeSize before))).value = .ok i) ∧
      (∀ front name es rest,
        (p = front ++ .code (some name) es :: rest ∨
          p = front ++ .label name :: .code none es :: rest) →
        ∃ offset e i, a.symbols.labels.find? name = some offset ∧ es.getLast? = some e ∧
          p.Means e i ∧ (1 < es.length → i = .str) ∧
            (c.instructionAt (c.memory.origin + offset)).value = .ok i) := by
  obtain ⟨p, is, hp, h⟩ := assembles_of_assemble ha
  refine ⟨_, p, Computer.load_eq (Nat.le_of_eq h.length_image), hp, ?_, ?_⟩
  · intro before e after he
    exact h.instructionAt hlayout he
  · rintro front name es rest (hcode | hcode)
    · exact h.instructionAt_label hp hlayout hcode rfl
    · have hsplit : p = (front ++ [.label name]) ++ .code none es :: rest := by
        rw [hcode]
        simp
      refine h.instructionAt_label hp hlayout hsplit ?_
      rw [SourceProgram.waitingAfter_append]
      rfl

/-- A label on a `PG` line points to the store at the end of what the line
expands to. -/
theorem instructionAt_of_assemble_page :
    ∃ a c, (assemble "ldi #7\nhere: pg #5").value = .ok a ∧
      Computer.load { files := .empty } a.image = .ok c ∧
      (c.instructionAt (c.memory.origin + 0)).value = .ok (.ldi 7) ∧
      ∃ offset, a.symbols.labels.find? "HERE" = some offset ∧
        (c.instructionAt (c.memory.origin + offset)).value = .ok .str := by
  obtain ⟨a, ha⟩ : ∃ a, (assemble "ldi #7\nhere: pg #5").value = .ok a :=
    Except.exists_eq_ok_of_isOk (by decide +kernel)
  obtain ⟨c, p, hc, hp, hcode, hlabel⟩ :=
    @instructionAt_of_assemble _ a { files := .empty } ha (by decide)
  have hp' : SourceProgram.ofSource? "ldi #7\nhere: pg #5" =
      some [.code none [⟨.ldi, some ⟨.decimal 7, ⟨4, 2⟩⟩⟩],
        .code (some "HERE")
          (Expansion.storeImmediate ⟨.hex 0, ⟨7, 11⟩⟩ ⟨.decimal 5, ⟨16, 2⟩⟩)] := by
    decide +kernel
  obtain rfl := Option.some.inj (hp.symm.trans hp')
  refine ⟨a, c, ha, hc, ?_, ?_⟩
  · obtain ⟨i, hi, hdecoded⟩ := hcode [] _ _ rfl
    cases hi with
    | withOperand hv _ _ _ =>
        rw [hv.unique (Bindings.denotes_decimal _ 7)] at hdecoded
        exact hdecoded
  · obtain ⟨offset, e, i, hoffset, -, -, hstr, hdecoded⟩ :=
      hlabel [.code none [⟨.ldi, some ⟨.decimal 7, ⟨4, 2⟩⟩⟩]] "HERE" _ [] (.inl rfl)
    rw [hstr (by decide)] at hdecoded
    exact ⟨offset, hoffset, hdecoded⟩

end StackRisc
