import StackRisc.Proofs.Assembly.Disassembly
import StackRisc.Proofs.Source.Grammar
import StackRisc.Proofs.Source.Reading
import StackRisc.Proofs.Text.Digits

/-!
# StackRisc.Proofs.Assembly.Reassembly

A listing is a source text: written out line by line, the instructions of an
image are assembled to the same image.

* `Instruction.read?_text_operand`, `Instruction.read?_text_bare` — the text of
  an instruction is an instruction line;
* `Instruction.ofLine?_text` — which stands for that instruction, whatever
  the names of the program;
* `assemble_source` — instructions are assembled from their texts;
* `reassemble_listing` — so is what an image lists.
-/

namespace StackRisc

open Text

/-! ## Mnemonics -/

/-- Mnemonics are read whatever their case. -/
theorem Opcode.ofName?_mnemonic (op : Opcode) : ofName? op.mnemonic = some op := by
  have hchars : op.mnemonic.toList.map Char.toUpper = op.mnemonic.toList := by
    cases op <;> decide
  have hupper : op.mnemonic.toUpper = op.mnemonic := by
    rw [← String.toList_inj, String.toUpper, String.toList_map, hchars]
  rw [ofName?, hupper, ofExactName?_mnemonic]

/-- No mnemonic is taken for the macro. -/
theorem Opcode.mnemonic_ne_page (op : Opcode) : op.mnemonic ≠ "PG" := by
  cases op <;> decide

/-- Every mnemonic is a name. -/
theorem Opcode.isName_mnemonic (op : Opcode) : IsName op.mnemonic.toList := by
  have hne : op.mnemonic.toList ≠ [] := by cases op <;> decide
  have hall : op.mnemonic.toList.all isNameChar = true := by cases op <;> decide
  exact ⟨hne, List.all_eq_true.mp hall⟩

theorem Opcode.isInk_of_mem_mnemonic (op : Opcode) :
    ∀ c ∈ op.mnemonic.toList, SourceLine.isInk c = true := by
  have hall : op.mnemonic.toList.all SourceLine.isInk = true := by cases op <;> decide
  exact List.all_eq_true.mp hall

namespace Expansion

/-- A mnemonic that takes an operand, with one that can be read. -/
theorem expand_operand {op : Opcode} (hop : op.hasOperand = true) (token : Lexeme)
    {literal : Literal} (hread : Literal.read? token.text.toList = some literal)
    (line : SourceLine) (start : Nat) :
    expand line ⟨start, op.mnemonic⟩ [token] =
      .ok [⟨op, some ⟨literal, line.spanOf token⟩⟩] := by
  have hoperand : operand line token = .ok ⟨literal, line.spanOf token⟩ := by
    rw [operand, hread]
  have hstr : op ≠ .str := by
    rintro rfl
    contradiction
  rw [expand, if_neg op.mnemonic_ne_page]
  simp only [op.ofName?_mnemonic, hop, if_true, hoperand]
  rfl

/-- A mnemonic that takes no operand. -/
theorem expand_bare {op : Opcode} (hop : op.hasOperand = false) (line : SourceLine)
    (start : Nat) : expand line ⟨start, op.mnemonic⟩ [] = .ok [⟨op, none⟩] := by
  rw [expand, if_neg op.mnemonic_ne_page]
  simp only [op.ofName?_mnemonic]
  cases op with
  | bge => contradiction
  | ldi => contradiction
  | _ => rfl

end Expansion

namespace Instruction

/-! ## Texts -/

/-- The operand of an instruction as it is written. -/
def token : Instruction → List Char
  | bge target => '$' :: upperDigits target.toNat
  | ldi value => '#' :: Nat.toDigits 10 value.toInt.toNat
  | _ => []

/-- The text of an instruction is its mnemonic, or its mnemonic, three gaps
and its operand. -/
theorem toList_text {i : Instruction} (h : i.InRange) :
    i.text.toList = i.opcode.mnemonic.toList ++
      (if i.opcode.hasOperand then List.replicate 3 ' ' ++ i.token else []) := by
  cases i with
  | bge target =>
      have hfront : (Text.padRight 5 Opcode.bge.mnemonic ++ " $").toList =
          "BGE".toList ++ (List.replicate 3 ' ' ++ ['$']) := by decide
      rw [text, String.toList_append, hfront, Text.hexUpper, String.toList_ofList]
      simp [token, opcode, Opcode.hasOperand, Opcode.mnemonic, upperDigits]
  | ldi value =>
      have hfront : (Text.padRight 5 Opcode.ldi.mnemonic ++ " #").toList =
          "LDI".toList ++ (List.replicate 3 ' ' ++ ['#']) := by decide
      obtain ⟨n, hn⟩ := Int.eq_ofNat_of_zero_le h
      have hdigits : (toString value.toInt).toList = Nat.toDigits 10 n := by
        rw [hn]
        exact Nat.toList_repr
      rw [text, String.toList_append, hfront, hdigits]
      simp [token, opcode, Opcode.hasOperand, Opcode.mnemonic, hn]
  | _ => exact (List.append_nil _).symm

/-- Operands are written in one word. -/
theorem isInk_of_mem_token (i : Instruction) : ∀ c ∈ i.token, SourceLine.isInk c = true := by
  cases i with
  | bge target =>
      intro c hc
      rcases List.mem_cons.mp hc with rfl | hc
      · decide
      · exact forall_mem_upperDigits (P := fun c => SourceLine.isInk c = true) (by decide) _ c hc
  | ldi value =>
      intro c hc
      rcases List.mem_cons.mp hc with rfl | hc
      · decide
      · exact forall_mem_toDigits (P := fun c => SourceLine.isInk c = true) (by decide) (by decide)
          _ c hc
  | _ => exact fun c hc => absurd hc List.not_mem_nil

theorem token_ne_nil {i : Instruction} (h : i.opcode.hasOperand) : i.token ≠ [] := by
  cases i with
  | bge target => exact List.cons_ne_nil _ _
  | ldi value => exact List.cons_ne_nil _ _
  | _ => exact absurd h Bool.false_ne_true

/-- The text of an instruction is a plain line. -/
theorem plain_text {i : Instruction} (h : i.InRange) : SourceLine.Plain i.text.toList := by
  have hname := i.opcode.isInk_of_mem_mnemonic
  have hne := i.opcode.isName_mnemonic.1
  have htoken := i.isInk_of_mem_token
  rw [toList_text h]
  refine SourceLine.plain_of_words (List.append_ne_nil_of_left_ne_nil hne _) ?_ ?_ ?_
  · intro c hc
    rcases List.mem_append.mp hc with hc | hc
    · exact .inl (hname c hc)
    · split at hc
      · rcases List.mem_append.mp hc with hc | hc
        · exact .inr (List.eq_of_mem_replicate hc ▸ rfl)
        · exact .inl (htoken c hc)
      · contradiction
  · intro c hc
    rw [List.head?_append_of_ne_nil _ hne] at hc
    exact hname c (List.mem_of_head? hc)
  · intro c hc
    split at hc
    · next hoperand =>
      rw [← List.append_assoc, List.getLast?_append_of_ne_nil _ (token_ne_nil hoperand)] at hc
      exact htoken c (List.mem_of_getLast? hc)
    · rw [List.append_nil] at hc
      exact hname c (List.mem_of_getLast? hc)

/-! ## Reading texts back -/

/-- The text of an instruction with an operand is read as its mnemonic and this
operand. -/
theorem read?_text_operand {i : Instruction} (h : i.InRange) (hop : i.opcode.hasOperand = true) :
    ∃ place, Statement.read? i.text.toList =
      some (.instruction none ⟨0, i.opcode.mnemonic⟩ [⟨place, String.ofList i.token⟩]) := by
  have htoken : ∀ c ∈ i.token, isGap c = false := fun c hc =>
    SourceLine.isGap_of_isInk (i.isInk_of_mem_token c hc)
  have hfirst : ∀ c ∈ i.token.head?, c ≠ ':' ∧ c ≠ '=' := by
    cases i with
    | bge target =>
        rintro c ⟨⟩
        decide
    | ldi value =>
        rintro c ⟨⟩
        decide
    | _ => contradiction
  have hgap : ∀ c ∈ List.replicate 3 ' ', isGap c = true := by
    intro c hc
    rw [List.eq_of_mem_replicate hc]
    rfl
  obtain ⟨place, hread⟩ := Statement.read?_operand i.opcode.isName_mnemonic
    (List.cons_ne_nil _ _) hgap ⟨token_ne_nil hop, htoken⟩ hfirst
  rw [String.ofList_toList] at hread
  refine ⟨place, ?_⟩
  rw [toList_text h, if_pos hop]
  exact hread

/-- The text of an instruction without operand is read as its mnemonic. -/
theorem read?_text_bare {i : Instruction} (h : i.InRange) (hop : i.opcode.hasOperand = false) :
    Statement.read? i.text.toList = some (.instruction none ⟨0, i.opcode.mnemonic⟩ []) := by
  have hread := Statement.read?_bare i.opcode.isName_mnemonic
  rw [String.ofList_toList] at hread
  rw [toList_text h, hop, if_neg Bool.false_ne_true, List.append_nil, hread]

/-- The text of an instruction is a line that stands for it, whatever the
names of a program. -/
theorem ofLine?_text {i : Instruction} (h : i.InRange) {line : SourceLine}
    (hline : line.text = i.text.toList) :
    ∃ e, SourceEntry.ofLine? line = some (.code none [e]) ∧
      ∀ p : SourceProgram, p.Means e i := by
  cases hop : i.opcode.hasOperand with
  | false =>
      refine ⟨⟨i.opcode, none⟩, ?_, fun p => ?_⟩
      · rw [SourceEntry.ofLine?, hline, read?_text_bare h hop, Option.bind_some,
          SourceEntry.ofStatement?]
        simp only [Expansion.expand_bare hop]
        rfl
      · have hbare : p.Means ⟨i.opcode, none⟩ (.ofOpcode i.opcode 0) := .bare i.opcode
        rwa [← operand_eq_zero hop, i.ofOpcode_operand] at hbare
  | true =>
      obtain ⟨place, hread⟩ := read?_text_operand h hop
      have hentry : ∀ literal, Literal.read? i.token = some literal →
          SourceEntry.ofLine? line = some (.code none
            [⟨i.opcode, some ⟨literal, line.spanOf ⟨place, String.ofList i.token⟩⟩⟩]) := by
        intro literal hliteral
        have htoken : Literal.read? (String.ofList i.token).toList = some literal := by
          rw [String.toList_ofList, hliteral]
        have hexpand := Expansion.expand_operand hop ⟨place, String.ofList i.token⟩ htoken line 0
        rw [SourceEntry.ofLine?, hline, hread, Option.bind_some, SourceEntry.ofStatement?, hexpand]
        rfl
      cases i with
      | bge target =>
          have hsmall : target.toNat ≤ 9223372036854775807 := by
            have hlt := target.toNat_lt
            omega
          exact ⟨_, hentry _ (Literal.read?_hex hsmall), fun p => p.means_bge target h _⟩
      | ldi value =>
          have hsmall : value.toInt.toNat ≤ 9223372036854775807 := by
            have hlt := value.toInt_lt
            omega
          have hnat : (value.toInt.toNat : Int) = value.toInt := Int.toNat_of_nonneg h
          refine ⟨_, hentry _ (Literal.read?_decimal hsmall), fun p => ?_⟩
          rw [hnat]
          exact p.means_ldi value h _
      | _ => contradiction

/-- The source text of instructions, each on a line of its own. -/
def source (is : List Instruction) : String := String.join (is.map fun i => i.text ++ "\n")

/-- The lines of a listing are the texts of its instructions. -/
theorem pieces_source {is : List Instruction} (h : ∀ i ∈ is, i.InRange) :
    pieces '\n' (source is).toList = is.map (·.text.toList) ++ [[]] := by
  have htext : (source is).toList =
      (is.map (·.text.toList)).flatMap fun line => line ++ ['\n'] := by
    rw [source, String.toList_join, List.flatMap_map, List.flatMap_map]
    simp only [String.toList_append]
    rfl
  rw [htext]
  refine pieces_flatMap fun line hline => ?_
  obtain ⟨i, hi, rfl⟩ := List.mem_map.mp hline
  exact (plain_text (h i hi)).oneLine

end Instruction

namespace SourceProgram

/-! ## Programs of instructions alone -/

/-- A program that is nothing but instructions, one on each line. -/
def Spells (p : SourceProgram) (is : List Instruction) : Prop :=
  List.Forall₂ (fun entry i => ∃ e, entry = .code none [e] ∧ ∀ q : SourceProgram, q.Means e i) p is

variable {p : SourceProgram} {is : List Instruction}

/-- A program that is nothing but instructions stands for them, whatever else is
in sight. -/
theorem Spells.means (h : p.Spells is) (q : SourceProgram) :
    List.Forall₂ q.Means p.emissions is := by
  induction h with
  | nil => exact .nil
  | cons hentry _ ih =>
      obtain ⟨e, rfl, he⟩ := hentry
      exact .cons (he q) ih

/-- It has no labels. -/
theorem Spells.labelsFrom_eq_nil (h : p.Spells is) (offset : Nat) :
    labelsFrom none offset p = [] := by
  induction h generalizing offset with
  | nil => rfl
  | cons hentry _ ih =>
      obtain ⟨e, rfl, -⟩ := hentry
      exact ih _

/-- It defines no variables. -/
theorem Spells.definition?_eq_none (h : p.Spells is) (name : String) :
    p.definition? name = none := by
  induction h with
  | nil => rfl
  | cons hentry _ ih =>
      obtain ⟨e, rfl, -⟩ := hentry
      exact ih

/-- There are no labels to place. -/
theorem Spells.labelsSound (h : p.Spells is) : p.LabelsSound where
  distinct := by
    rw [labels, h.labelsFrom_eq_nil]
    exact .nil
  unblocked := by
    induction h with
    | nil => trivial
    | cons hentry _ ih =>
        obtain ⟨e, rfl, -⟩ := hentry
        exact ⟨trivial, ih⟩
  closed := by
    induction h with
    | nil => rfl
    | cons hentry _ ih =>
        obtain ⟨e, rfl, -⟩ := hentry
        exact ih

/-- The program of the texts of instructions. -/
theorem exists_spells (h : ∀ i ∈ is, i.InRange) (number offset : Nat) :
    ∃ p, ofLines? (SourceLine.cleanAll number offset (is.map (·.text.toList) ++ [[]])) = some p ∧
      p.Spells is := by
  induction is generalizing number offset with
  | nil => exact ⟨[], rfl, .nil⟩
  | cons i is ih =>
      have hi := h i List.mem_cons_self
      obtain ⟨line, hclean, hline⟩ :=
        SourceLine.clean?_eq_some (Instruction.plain_text hi) number offset
      obtain ⟨e, he, hmeans⟩ := Instruction.ofLine?_text hi hline
      obtain ⟨p, hp, hspells⟩ := ih (fun x hx => h x (List.mem_cons_of_mem i hx)) (number + 1)
        (offset + utf8Size i.text.toList + 1)
      refine ⟨.code none [e] :: p, ?_, .cons ⟨e, rfl, hmeans⟩ hspells⟩
      rw [List.map_cons, List.cons_append, SourceLine.cleanAll, hclean, Option.toList_some,
        List.singleton_append, ofLines?, he, hp]
      rfl

end SourceProgram

/-! ## Images -/

/-- Instructions that fit are assembled from their texts, without any
symbols. -/
theorem assemble_source {is : List Instruction} (h : ∀ i ∈ is, i.InRange)
    (hfits : (is.flatMap Instruction.encode).length ≤ offsetLimit) :
    ∃ a, (assemble (Instruction.source is)).value = .ok a ∧ a.image = Instruction.image is ∧
      a.symbols = {} := by
  obtain ⟨p, hp, hspells⟩ := SourceProgram.exists_spells h 1 0
  rw [← Instruction.pieces_source h] at hp
  have hmeans := hspells.means p
  have hsize : p.size ≤ offsetLimit := by
    rw [SourceProgram.size, ← SourceProgram.length_flatMap_encode hmeans]
    exact hfits
  obtain ⟨a, ha, hassembles⟩ := assemble_of_means hp hspells.labelsSound hsize hmeans
  have hlabels : a.symbols.labels = .empty := by
    refine NameTable.eq_empty fun name => ?_
    rw [hassembles.labels, SourceProgram.label?, SourceProgram.labels, hspells.labelsFrom_eq_nil]
    rfl
  have hvalues : a.symbols.values = .empty := by
    refine NameTable.eq_empty fun name => ?_
    rw [← Option.not_isSome_iff_eq_none]
    intro hname
    have hdefined := (hassembles.values name hname).defined
    rw [hspells.definition?_eq_none] at hdefined
    contradiction
  refine ⟨a, ha, hassembles.image, ?_⟩
  rw [← hlabels, ← hvalues]

/-- What is assembled can be listed and assembled again: the instructions
that its image lists, written out one on a line, make a source text without
labels and variables that gives the same image. -/
theorem reassemble_listing {source : String} {a : Assembly}
    (ha : (assemble source).value = .ok a) :
    ∃ is : List Instruction, (Listing.ofImage a.image).map (·.content) = is.map .ok ∧
      ∃ a', (assemble (String.join (is.map fun i => i.text ++ "\n"))).value = .ok a' ∧
        a'.image = a.image ∧ a'.symbols = {} := by
  obtain ⟨p, is, -, h⟩ := assembles_of_assemble ha
  have hfits := h.length_le
  obtain ⟨blanks, hblanks⟩ : is.rdropWhile Instruction.isBlank <+: is := List.rdropWhile_prefix _ _
  have hrange : ∀ i ∈ is.rdropWhile Instruction.isBlank, i.InRange := fun i hi =>
    SourceProgram.inRange_of_mem h.means i (hblanks ▸ List.mem_append_left blanks hi)
  have hfits' : ((is.rdropWhile Instruction.isBlank).flatMap Instruction.encode).length ≤
      offsetLimit := by
    rw [← hblanks, List.flatMap_append, List.length_append] at hfits
    omega
  refine ⟨is.rdropWhile Instruction.isBlank, ?_, ?_⟩
  · rw [h.ofImage, Listing.contents_entriesFrom]
  · obtain ⟨a', ha', himage, hsymbols⟩ := assemble_source hrange hfits'
    refine ⟨a', ha', ?_, hsymbols⟩
    rw [himage, h.image, Instruction.image_rdropWhile is hfits]

/-- A loop with a label and a variable: its listing has neither, and is
assembled to the same image. -/
theorem reassemble_listing_loop :
    ∃ a, (assemble "loop: ldi n\nbge loop\nn = #5").value = .ok a ∧
      ∃ is : List Instruction, (Listing.ofImage a.image).map (·.content) = is.map .ok ∧
        ∃ a', (assemble (String.join (is.map fun i => i.text ++ "\n"))).value = .ok a' ∧
          a'.image = a.image ∧ a'.symbols = {} := by
  obtain ⟨a, ha⟩ : ∃ a, (assemble "loop: ldi n\nbge loop\nn = #5").value = .ok a :=
    Except.exists_eq_ok_of_isOk (by decide +kernel)
  exact ⟨a, ha, reassemble_listing ha⟩

end StackRisc
