import StackRisc.Proofs.Assembly.Reassembly
import StackRisc.Proofs.Source.Layout
import StackRisc.Proofs.Text.Literal
import StackRisc.Proofs.Text.Numeral

/-!
# StackRisc.Proofs.Assembly.Operands

Numerals as operands.  A literal holds the nearer end of the 64-bit range in
place of a number outside of it, and no such end is in the range of operands,
so a numeral is accepted exactly if the number that it stands for is:

* `SourceProgram.means_numeral_iff` — what a numeral stands for as an operand;
* `SourceLine.assemble_iff_of_loads` — when a source with such a line is
  accepted, and `SourceLine.image_of_loads` — what it is assembled to;
* `SourceLine.ofSource_of_load` — the line alone is such a source;
* `numeral_exact` — the number is never changed on the way to the image.
-/

namespace StackRisc

open Text

/-! ## One operand -/

/-- As an operand, a numeral stands for its number if this is in range, and for
nothing otherwise: no end of the 64-bit range is an operand. -/
theorem SourceProgram.means_numeral_iff {p : SourceProgram} {literal : Literal} {span : Span}
    {v : Int} {i : Instruction} (h : literal.number? = some (saturate v)) :
    p.Means ⟨.ldi, some ⟨literal, span⟩⟩ i ↔
      (0 ≤ v ∧ v ≤ Word.largest) ∧ i = .ldi (Int32.ofInt v) := by
  have hdenotes : p.bindings.Denotes literal (saturate v) := by
    cases literal with
    | hex n =>
        rw [← Option.some.inj h]
        exact Bindings.denotes_hex _ _
    | decimal n =>
        rw [← Option.some.inj h]
        exact Bindings.denotes_decimal _ _
    | reference name => contradiction
  have hlargest : (Word.largest : Int) = 2147483647 := rfl
  have hsame : (0 ≤ saturate v ∧ saturate v ≤ Word.largest) ↔ 0 ≤ v ∧ v ≤ Word.largest := by
    unfold saturate
    omega
  have hself (hv : 0 ≤ v ∧ v ≤ Word.largest) : saturate v = v :=
    saturate_eq_self (by omega) (by omega)
  constructor
  · intro hi
    cases hi with
    | withOperand hn h0 h1 _ =>
        obtain rfl := hn.unique hdenotes
        have hv := hsame.mp ⟨h0, h1⟩
        exact ⟨hv, by rw [hself hv]; rfl⟩
  · rintro ⟨hv, rfl⟩
    rw [hself hv] at hdenotes
    exact .withOperand hdenotes hv.1 hv.2 fun hop => absurd hop (by decide)

/-! ## One line of a source -/

namespace SourceProgram

variable {p q : SourceProgram} {source : String} {front back : List SourceLine} {l : SourceLine}
  {mark : Option String} {e : Emission} {a : Assembly}

/-- Lines are read one after the other. -/
theorem ofLines?_append (xs ys : List SourceLine) :
    ofLines? (xs ++ ys) = (ofLines? xs).bind fun p => (ofLines? ys).map (p ++ ·) := by
  induction xs with
  | nil => simp [ofLines?]
  | cons line xs ih =>
      rw [List.cons_append, ofLines?, ofLines?, ih]
      cases SourceEntry.ofLine? line with
      | none => rfl
      | some entry =>
          cases ofLines? xs with
          | none => rfl
          | some p => cases ofLines? ys <;> rfl

/-- A program is in order but for the operands of one entry. -/
structure SoundAround (p : SourceProgram) (entry : SourceEntry) (q : SourceProgram) : Prop where
  labels : LabelsSound (p ++ entry :: q)
  fits : size (p ++ entry :: q) ≤ offsetLimit
  means : ∀ e ∈ p.emissions ++ q.emissions, ∃ i, Means (p ++ entry :: q) e i

/-- The emissions of a program with one instruction in the middle. -/
theorem emissions_around (p q : SourceProgram) (mark : Option String) (e : Emission) :
    emissions (p ++ .code mark [e] :: q) = p.emissions ++ e :: q.emissions := by
  rw [emissions_append]
  rfl

/-- The entries of a source with one instruction on a line of it. -/
theorem ofSource?_eq_some_iff (hlines : SourceLine.ofSource source = front ++ l :: back)
    {entry : SourceEntry} (hentry : SourceEntry.ofLine? l = some entry) {program : SourceProgram} :
    ofSource? source = some program ↔
      ∃ p q, ofLines? front = some p ∧ ofLines? back = some q ∧ program = p ++ entry :: q := by
  rw [ofSource?, hlines, ofLines?_append, ofLines?, hentry, Option.bind_some]
  simp only [Option.bind_eq_some_iff, Option.map_eq_some_iff]
  constructor
  · rintro ⟨p, hp, _, ⟨q, hq, rfl⟩, rfl⟩
    exact ⟨p, q, hp, hq, rfl⟩
  · rintro ⟨p, q, hp, hq, rfl⟩
    exact ⟨p, hp, _, ⟨q, hq, rfl⟩, rfl⟩

/-- A source is accepted exactly if the instruction of one of its lines is and
all the rest is in order. -/
theorem assemble_iff_around (hlines : SourceLine.ofSource source = front ++ l :: back)
    (hentry : SourceEntry.ofLine? l = some (.code mark [e])) :
    (∃ a, (assemble source).value = .ok a) ↔
      ∃ p q, ofLines? front = some p ∧ ofLines? back = some q ∧
        SoundAround p (.code mark [e]) q ∧ ∃ i, Means (p ++ .code mark [e] :: q) e i := by
  constructor
  · rintro ⟨a, ha⟩
    obtain ⟨program, is, hprogram, his⟩ := assembles_of_assemble ha
    obtain ⟨p, q, hp, hq, rfl⟩ := (ofSource?_eq_some_iff hlines hentry).mp hprogram
    have hmeans := exists_means_iff.mp ⟨is, his.means⟩
    rw [emissions_around] at hmeans
    refine ⟨p, q, hp, hq, ⟨his.sound, his.fits, fun e' he' => hmeans e' ?_⟩, hmeans e (by simp)⟩
    rcases List.mem_append.mp he' with he' | he'
    · exact List.mem_append_left _ he'
    · exact List.mem_append_right _ (List.mem_cons_of_mem e he')
  · rintro ⟨p, q, hp, hq, hsound, hi⟩
    have hprogram := (ofSource?_eq_some_iff hlines hentry).mpr ⟨p, q, hp, hq, rfl⟩
    have hmeans : ∀ e' ∈ emissions (p ++ .code mark [e] :: q),
        ∃ i, Means (p ++ .code mark [e] :: q) e' i := by
      intro e' he'
      rw [emissions_around, List.mem_append, List.mem_cons] at he'
      rcases he' with he' | he' | he'
      · exact hsound.means e' (List.mem_append_left _ he')
      · exact he' ▸ hi
      · exact hsound.means e' (List.mem_append_right _ he')
    obtain ⟨is, his⟩ := exists_means_iff.mpr hmeans
    obtain ⟨a, ha, -⟩ := assemble_of_means hprogram hsound.labels hsound.fits his
    exact ⟨a, ha⟩

/-- The instruction of a line stands in the image between those of the lines
before it and those of the lines after it. -/
theorem image_around (hlines : SourceLine.ofSource source = front ++ l :: back)
    (hentry : SourceEntry.ofLine? l = some (.code mark [e]))
    (ha : (assemble source).value = .ok a) :
    ∃ p q is i js, ofLines? front = some p ∧ ofLines? back = some q ∧
      Means (p ++ .code mark [e] :: q) e i ∧ a.image = Instruction.image (is ++ i :: js) ∧
        (is.flatMap Instruction.encode).length = p.size ∧
          (js.flatMap Instruction.encode).length = q.size := by
  obtain ⟨program, all, hprogram, h⟩ := assembles_of_assemble ha
  obtain ⟨p, q, hp, hq, rfl⟩ := (ofSource?_eq_some_iff hlines hentry).mp hprogram
  have hmeans := h.means
  rw [emissions_around] at hmeans
  obtain ⟨is, i, js, rfl, his, hi, hjs⟩ := exists_of_forall₂_append hmeans
  exact ⟨p, q, is, i, js, hp, hq, hi, h.image, length_flatMap_encode his,
    length_flatMap_encode hjs⟩

end SourceProgram

/-- A load stands in an image as the byte 1 and the digits of its number. -/
theorem Instruction.take_drop_image_ldi {is js : List Instruction} {w : Word} (h : 0 ≤ w.toInt) :
    ((Instruction.image (is ++ .ldi w :: js)).drop (is.flatMap Instruction.encode).length).take 5 =
      1 :: littleEndian w.toInt.toNat := by
  have hload : (Instruction.ldi w).encode = 1 :: littleEndian w.toInt.toNat := by
    rw [← Word.bytes_of_nonneg h]
    rfl
  rw [Instruction.image, List.flatMap_append, List.flatMap_cons, hload, List.append_assoc,
    List.drop_left, List.append_assoc]
  exact List.take_left' rfl

/-! ## Numerals in a line -/

namespace SourceLine

variable {source : String} {front back : List SourceLine} {l : SourceLine}
  {token name gaps : List Char} {v : Int} {a : Assembly}

/-- A line loads an operand that is written as a token. -/
def Loads (l : SourceLine) (token : List Char) : Prop :=
  ∃ label mnemonic word, Statement.read? l.text = some (.instruction label mnemonic [word]) ∧
    mnemonic.text = "LDI" ∧ word.text.toList = token

/-- A line that loads a numeral is read as one emission. -/
theorem ofLine?_of_loads (h : l.Loads token) {literal : Literal}
    (hread : Literal.read? token = some literal) :
    ∃ mark span, SourceEntry.ofLine? l = some (.code mark [⟨.ldi, some ⟨literal, span⟩⟩]) := by
  obtain ⟨label, ⟨start, mnemonic⟩, word, hstatement, rfl, rfl⟩ := h
  have hldi : Opcode.ldi.hasOperand = true := rfl
  have hexpand := Expansion.expand_operand hldi word hread l start
  refine ⟨label.map (·.text), l.spanOf word, ?_⟩
  rw [SourceEntry.ofLine?, hstatement, Option.bind_some, SourceEntry.ofStatement?]
  simp only [show (⟨start, "LDI"⟩ : Lexeme) = ⟨start, Opcode.ldi.mnemonic⟩ from rfl, hexpand]

/-- A source with a line that loads a numeral is accepted exactly if the
number is in range and all the rest is in order. -/
theorem assemble_iff_of_loads (htoken : NumeralFor token v)
    (hlines : ofSource source = front ++ l :: back) (hl : l.Loads token) :
    (∃ a, (assemble source).value = .ok a) ↔
      (0 ≤ v ∧ v ≤ Word.largest) ∧
        ∃ p entry q, SourceProgram.ofLines? front = some p ∧ SourceEntry.ofLine? l = some entry ∧
          SourceProgram.ofLines? back = some q ∧ p.SoundAround entry q := by
  obtain ⟨literal, hscan, hnumber⟩ := Literal.scan_numeral htoken
  obtain ⟨mark, span, hentry⟩ := ofLine?_of_loads hl (Literal.read?_of_scan hscan)
  simp only [SourceProgram.assemble_iff_around hlines hentry, hentry,
    SourceProgram.means_numeral_iff hnumber]
  constructor
  · rintro ⟨p, q, hp, hq, hsound, i, hv, -⟩
    exact ⟨hv, p, _, q, hp, rfl, hq, hsound⟩
  · rintro ⟨hv, p, entry, q, hp, hsame, hq, hsound⟩
    obtain rfl := Option.some.inj hsame
    exact ⟨p, q, hp, hq, hsound, _, hv, rfl⟩

/-- The number of a numeral is in the image as it is, between what the lines
before and after it are assembled to: the byte 1 and its four digits. -/
theorem image_of_loads (htoken : NumeralFor token v)
    (hlines : ofSource source = front ++ l :: back) (hl : l.Loads token)
    (ha : (assemble source).value = .ok a) :
    ∃ p q is w js, SourceProgram.ofLines? front = some p ∧ SourceProgram.ofLines? back = some q ∧
      a.image = Instruction.image (is ++ .ldi w :: js) ∧ w.toInt = v ∧
        (a.image.drop p.size).take 5 = 1 :: littleEndian v.toNat ∧
          (is.flatMap Instruction.encode).length = p.size ∧
            (js.flatMap Instruction.encode).length = q.size := by
  obtain ⟨literal, hscan, hnumber⟩ := Literal.scan_numeral htoken
  obtain ⟨mark, span, hentry⟩ := ofLine?_of_loads hl (Literal.read?_of_scan hscan)
  obtain ⟨p, q, is, i, js, hp, hq, hi, himage, hbefore, hafter⟩ :=
    SourceProgram.image_around hlines hentry ha
  obtain ⟨⟨h0, h1⟩, rfl⟩ := (SourceProgram.means_numeral_iff hnumber).mp hi
  have hv : (Int32.ofInt v).toInt = v := Word.toInt_ofInt h0 h1
  have hnonneg : 0 ≤ (Int32.ofInt v).toInt := by
    rw [hv]
    exact h0
  refine ⟨p, q, is, _, js, hp, hq, himage, hv, ?_, hbefore, hafter⟩
  rw [himage, ← hbefore, Instruction.take_drop_image_ldi hnonneg, hv]

/-! ## A line alone -/

/-- Digits in capitals are kept by cleaning a line. -/
theorem isInk_toUpper_of_isDigit {base : Nat} {c : Char} {d : Nat} (h : IsDigit base c d)
    (hbase : base ≤ 16) : isInk c.toUpper = true := by
  have hall : ∀ d < 16, isInk (Nat.digitChar d).toUpper = true ∧
      isInk (Nat.digitChar d).toUpper.toUpper = true := by decide
  obtain ⟨hlower, hupper⟩ := hall d (Nat.lt_of_lt_of_le h.1 hbase)
  rcases h.2 with rfl | rfl
  · exact hlower
  · exact hupper

/-- A numeral is written in one word, whatever the case of its digits. -/
theorem isInk_of_numeral (h : NumeralFor token v) : ∀ c ∈ upper token, isInk c = true := by
  refine List.forall_mem_map.mpr ?_
  cases h with
  | hex hmark hdigits =>
      refine List.forall_mem_cons.mpr ⟨?_, hdigits.forall_mem fun c d hd =>
        isInk_toUpper_of_isDigit hd (Nat.le_refl 16)⟩
      rcases hmark with rfl | rfl <;> decide
  | decimal hsign hdigits =>
      refine List.forall_mem_cons.mpr ⟨by decide, List.forall_mem_append.mpr ⟨?_,
        hdigits.forall_mem fun c d hd => isInk_toUpper_of_isDigit hd (by decide)⟩⟩
      cases hsign with
      | none => exact fun c hc => absurd hc List.not_mem_nil
      | plus | minus => exact List.forall_mem_singleton.mpr rfl

variable {raw : List Char}

/-- A source of one plain line, in any case. -/
theorem ofSource_of_plain (h : Plain (upper raw)) :
    ∃ l, ofSource (String.ofList raw) = [l] ∧ l.text = upper raw := by
  have hcleaned : cleaned raw = upper raw := by
    obtain ⟨line, hline, htext⟩ := clean?_eq_some h 1 0
    have hleft := map_text_clean? 1 0 (upper raw)
    rw [hline, Option.toList_some, List.map_singleton, htext] at hleft
    have hmem : upper raw ∈ [cleaned (upper raw)].filter (· ≠ []) :=
      hleft ▸ List.mem_singleton_self _
    rw [Edit.cleaned_eq (.case (upper_upper raw).symm)]
    exact (List.mem_singleton.mp (List.mem_filter.mp hmem).1).symm
  have hpieces : pieces '\n' raw = [raw] := by
    refine pieces_eq_singleton fun hmem => h.oneLine ?_
    exact List.mem_map.mpr ⟨'\n', hmem, rfl⟩
  have htexts := map_text_ofSource (String.ofList raw)
  rw [String.toList_ofList, hpieces, texts, List.map_singleton, hcleaned,
    List.filter_cons_of_pos (by simpa using h.nonempty), List.filter_nil,
    List.map_eq_singleton_iff] at htexts
  exact htexts

/-- A numeral behind the mnemonic and gaps is loaded by a source of one line. -/
theorem ofSource_of_load (hname : upper name = "LDI".toList) (hne : gaps ≠ [])
    (hgaps : ∀ c ∈ gaps, isGap c = true) (htoken : NumeralFor token v) :
    ∃ l, ofSource (String.ofList (name ++ (gaps ++ token))) = [l] ∧ l.Loads (upper token) := by
  have hink := isInk_of_numeral htoken
  obtain ⟨literal, hscan, hnumber⟩ := Literal.scan_numeral htoken.upper
  have hmark := (Literal.isNumeral_of_scan hscan hnumber).mark
  have hword : upper token ≠ [] := by
    rintro hnil
    rw [hnil] at hmark
    simp at hmark
  have htext : upper (name ++ (gaps ++ token)) = "LDI".toList ++ (gaps ++ upper token) := by
    have hsame : upper gaps = gaps :=
      (List.map_congr_left fun c hc => toUpper_of_isGap (hgaps c hc)).trans (List.map_id' gaps)
    rw [upper, List.map_append, List.map_append, ← upper, ← upper, ← upper, hname, hsame]
  have hplain : Plain (upper (name ++ (gaps ++ token))) := by
    rw [htext]
    refine plain_of_words (by simp) ?_ ?_ ?_
    · intro c hc
      rcases List.mem_append.mp hc with hc | hc
      · exact .inl (Opcode.isInk_of_mem_mnemonic .ldi c hc)
      · rcases List.mem_append.mp hc with hc | hc
        · exact .inr (hgaps c hc)
        · exact .inl (hink c hc)
    · rintro c ⟨⟩
      decide
    · intro c hc
      rw [← List.append_assoc, List.getLast?_append_of_ne_nil _ hword] at hc
      exact hink c (List.mem_of_getLast? hc)
  have hgap : ∀ c ∈ upper token, isGap c = false := fun c hc => isGap_of_isInk (hink c hc)
  have hfirst : ∀ c ∈ (upper token).head?, c ≠ ':' ∧ c ≠ '=' := by
    rintro c hc
    rcases hmark with h | h | h <;> rw [h] at hc <;> cases hc <;> decide
  obtain ⟨l, hl, hltext⟩ := ofSource_of_plain hplain
  obtain ⟨place, hread⟩ := Statement.read?_operand (Opcode.isName_mnemonic .ldi) hne hgaps
    ⟨hword, hgap⟩ hfirst
  refine ⟨l, hl, none, ⟨0, "LDI"⟩, ⟨place, String.ofList (upper token)⟩, ?_, rfl,
    String.toList_ofList⟩
  rw [hltext, htext]
  exact hread

end SourceLine

/-- Around a single line, everything is in order. -/
theorem SourceProgram.soundAround_nil (mark : Option String) (e : Emission) :
    SoundAround [] (.code mark [e]) [] where
  labels := by
    cases mark with
    | none => exact ⟨.nil, ⟨trivial, trivial⟩, rfl⟩
    | some name => exact ⟨by simp [labels, labelsFrom, SourceEntry.placed?], ⟨rfl, trivial⟩, rfl⟩
  fits := by
    show e.opcode.size + 0 ≤ offsetLimit
    cases e.opcode <;> decide
  means _ he := absurd he List.not_mem_nil

variable {name gaps token : List Char} {v : Int}

/-- A source of one line that loads a numeral is accepted exactly if the number
is in range; the image then starts with the byte 1 and the four digits of that
number, and holds nothing else. -/
theorem assemble_load (hname : upper name = "LDI".toList) (hne : gaps ≠ [])
    (hgaps : ∀ c ∈ gaps, isGap c = true) (htoken : NumeralFor token v) :
    ((∃ a, (assemble (String.ofList (name ++ (gaps ++ token)))).value = .ok a) ↔
      0 ≤ v ∧ v ≤ Word.largest) ∧
    ∀ a, (assemble (String.ofList (name ++ (gaps ++ token)))).value = .ok a →
      a.image = 1 :: (littleEndian v.toNat ++ List.replicate 4091 0) := by
  obtain ⟨l, hlines, hl⟩ := SourceLine.ofSource_of_load hname hne hgaps htoken
  have hsplit : SourceLine.ofSource (String.ofList (name ++ (gaps ++ token))) = [] ++ l :: [] :=
    hlines
  refine ⟨?_, fun a ha => ?_⟩
  · rw [SourceLine.assemble_iff_of_loads htoken.upper hsplit hl, and_iff_left_iff_imp]
    intro _
    obtain ⟨literal, hscan, -⟩ := Literal.scan_numeral htoken.upper
    obtain ⟨mark, span, hentry⟩ := SourceLine.ofLine?_of_loads hl (Literal.read?_of_scan hscan)
    exact ⟨[], _, [], rfl, hentry, rfl, SourceProgram.soundAround_nil mark _⟩
  · obtain ⟨⟨hv, -⟩, -⟩ := (SourceLine.assemble_iff_of_loads htoken.upper hsplit hl).mp ⟨a, ha⟩
    obtain ⟨p, q, is, w, js, hp, hq, himage, rfl, -, his, hjs⟩ :=
      SourceLine.image_of_loads htoken.upper hsplit hl ha
    cases hp
    cases hq
    have hnil {is : List Instruction} (h : (is.flatMap Instruction.encode).length = 0) : is = [] :=
      List.length_eq_zero_iff.mp
        (Nat.le_zero.mp (h ▸ Listing.length_le_length_flatMap_encode is))
    rw [himage, hnil his, hnil hjs, ← Word.bytes_of_nonneg hv]
    rfl

/-- That literals are brought to the 64-bit range is never seen.  A numeral,
however long, is read as a whole, and its literal holds the nearer end of the
range in place of a number outside of it.  As the operand of a load it is
accepted exactly if its own number is from 0 to 2147483647, and the image holds
the four digits of this number behind the byte of a load: alone on a line, and
in any line of any source in which all the rest is in order. -/
theorem numeral_exact (h : NumeralFor token v) :
    (∃ literal, Literal.scan token = some (literal, []) ∧
      literal.number? = some (max (-9223372036854775808) (min v 9223372036854775807))) ∧
    (∀ name gaps, upper name = "LDI".toList → gaps ≠ [] → (∀ c ∈ gaps, isGap c = true) →
      ((∃ a, (assemble (String.ofList (name ++ (gaps ++ token)))).value = .ok a) ↔
        0 ≤ v ∧ v ≤ 2147483647) ∧
      ∀ a, (assemble (String.ofList (name ++ (gaps ++ token)))).value = .ok a →
        a.image = 1 :: (littleEndian v.toNat ++ List.replicate 4091 0)) ∧
    ∀ source front l back, SourceLine.ofSource source = front ++ l :: back → l.Loads token →
      ((∃ a, (assemble source).value = .ok a) ↔
        (0 ≤ v ∧ v ≤ 2147483647) ∧
          ∃ p entry q, SourceProgram.ofLines? front = some p ∧
            SourceEntry.ofLine? l = some entry ∧ SourceProgram.ofLines? back = some q ∧
              p.SoundAround entry q) ∧
      ∀ a, (assemble source).value = .ok a →
        ∃ p q is w js, SourceProgram.ofLines? front = some p ∧
          SourceProgram.ofLines? back = some q ∧
            a.image = Instruction.image (is ++ .ldi w :: js) ∧ w.toInt = v ∧
              (a.image.drop p.size).take 5 = 1 :: littleEndian v.toNat ∧
                (is.flatMap Instruction.encode).length = p.size ∧
                  (js.flatMap Instruction.encode).length = q.size := by
  refine ⟨Literal.scan_numeral h, fun name gaps hname hne hgaps => ?_,
    fun source front l back hlines hl => ⟨?_, fun a ha => ?_⟩⟩
  · exact assemble_load hname hne hgaps h
  · exact SourceLine.assemble_iff_of_loads h hlines hl
  · exact SourceLine.image_of_loads h hlines hl ha

/-- The largest operand, byte by byte; a small one behind another instruction;
and a number below the 64-bit range, which is refused. -/
theorem numeral_exact_past_range :
    NumeralFor "$7fFFffFF".toList 2147483647 ∧
      (∃ a, (assemble "Ldi \t$7fFFffFF").value = .ok a ∧
        a.image = 1 :: 255 :: 255 :: 255 :: 127 :: List.replicate 4091 0) ∧
      NumeralFor "#+258".toList 258 ∧
      (∃ a, (assemble "hlt\nldi #+258").value = .ok a ∧
        (a.image.drop 1).take 5 = [1, 2, 1, 0, 0]) ∧
      NumeralFor "#-9223372036854775809".toList (-9223372036854775809) ∧
      (∃ literal, Literal.scan "#-9223372036854775809".toList = some (literal, []) ∧
        literal.number? = some (-9223372036854775808)) ∧
      ¬∃ a, (assemble "X: ldi #-9223372036854775809 ; low\nhlt").value = .ok a := by
  have hhigh : NumeralFor "$7fFFffFF".toList 2147483647 := by
    have hdigits : DigitsFor 16 "7fFFffFF".toList 2147483647 :=
      ⟨by decide, [7, 15, 15, 15, 15, 15, 15, 15], by decide, by decide⟩
    exact .hex (.inl rfl) hdigits
  have hsmall : NumeralFor "#+258".toList 258 := by
    have hdigits : DigitsFor 10 "258".toList 258 := ⟨by decide, [2, 5, 8], by decide, by decide⟩
    exact .decimal .plus hdigits
  have hlow : NumeralFor "#-9223372036854775809".toList (-9223372036854775809) := by
    have hdigits : DigitsFor 10 "9223372036854775809".toList 9223372036854775809 :=
      ⟨by decide, [9, 2, 2, 3, 3, 7, 2, 0, 3, 6, 8, 5, 4, 7, 7, 5, 8, 0, 9], by decide, by decide⟩
    exact .decimal .minus hdigits
  obtain ⟨-, hload, -⟩ := numeral_exact hhigh
  obtain ⟨-, -, hbehind⟩ := numeral_exact hsmall
  obtain ⟨hscan, -, hlines⟩ := numeral_exact hlow
  refine ⟨hhigh, ?_, hsmall, ?_, hlow, hscan, ?_⟩
  · have hsource : String.ofList ("Ldi".toList ++ (" \t".toList ++ "$7fFFffFF".toList)) =
        "Ldi \t$7fFFffFF" := by decide
    obtain ⟨haccepted, himage⟩ :=
      hload "Ldi".toList " \t".toList (by decide) (by decide) (List.all_eq_true.mp (by decide))
    rw [hsource] at haccepted himage
    obtain ⟨a, ha⟩ := haccepted.mpr (by decide)
    exact ⟨a, ha, himage a ha⟩
  · have hsource : SourceLine.ofSource "hlt\nldi #+258" =
        [⟨1, 0, "HLT".toList⟩] ++ ⟨2, 4, "LDI #+258".toList⟩ :: [] := by
      decide +kernel
    have hl : SourceLine.Loads ⟨2, 4, "LDI #+258".toList⟩ "#+258".toList :=
      ⟨none, ⟨0, "LDI"⟩, ⟨4, "#+258"⟩, by decide +kernel, rfl, rfl⟩
    have hfront : SourceProgram.ofLines? [⟨1, 0, "HLT".toList⟩] =
        some [.code none [⟨.hlt, none⟩]] := by
      decide +kernel
    obtain ⟨a, ha⟩ : ∃ a, (assemble "hlt\nldi #+258").value = .ok a :=
      Except.exists_eq_ok_of_isOk (by decide +kernel)
    obtain ⟨p, -, -, -, -, hp, -, -, -, hbytes, -⟩ := (hbehind _ _ _ _ hsource hl).2 a ha
    obtain rfl := Option.some.inj (hp.symm.trans hfront)
    exact ⟨a, ha, hbytes⟩
  · have hsource : SourceLine.ofSource "X: ldi #-9223372036854775809 ; low\nhlt" =
        [] ++ ⟨1, 0, "X: LDI #-9223372036854775809".toList⟩ :: [⟨2, 35, "HLT".toList⟩] := by
      decide +kernel
    have hl : SourceLine.Loads ⟨1, 0, "X: LDI #-9223372036854775809".toList⟩
        "#-9223372036854775809".toList :=
      ⟨some ⟨0, "X"⟩, ⟨3, "LDI"⟩, ⟨7, "#-9223372036854775809"⟩, by decide +kernel, rfl, rfl⟩
    intro haccepted
    exact absurd ((hlines _ _ _ _ hsource hl).1.mp haccepted).1 (by decide)

end StackRisc
