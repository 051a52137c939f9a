import StackRisc.Proofs.Assembly.Loading
import StackRisc.Proofs.Source.Reading
import Mathlib.Data.List.Induction

/-!
# StackRisc.Proofs.Assembly.Labels

Which labels mark instructions.  A label waits on a line of its own for the
next line that is not a label; an instruction line puts it on an instruction,
but a variable line puts it wherever the program has got to, also at the end:

* `SourceProgram.StartsAt`, `SourceProgram.Stranded` — offsets of
  instructions, and labels that no instruction follows;
* `SourceProgram.startsAt_iff` — a label marks an instruction exactly if one
  follows it;
* `assemble_eq_dangling_iff` — a label is refused as dangling exactly if its
  line is the last one;
* `label_marks_iff_followed` — all of it for a source.
-/

namespace StackRisc

/-! ## Lines that say nothing -/

namespace SourceLine

/-- Whether anything is left of a line does not depend on its place. -/
theorem clean?_eq_none_iff {number offset : Nat} {raw : List Char} :
    clean? number offset raw = none ↔ Text.trim (code raw) = [] := by
  simp [clean?]

/-- No line is left exactly if all of them are blank or comments. -/
theorem cleanAll_eq_nil_iff {number offset : Nat} {raws : List (List Char)} :
    cleanAll number offset raws = [] ↔ ∀ raw ∈ raws, Text.trim (code raw) = [] := by
  induction raws generalizing number offset with
  | nil => simp [cleanAll]
  | cons raw raws ih => simp [cleanAll, ih, clean?_eq_none_iff]

/-- Lines that nothing is left of add nothing to the lines before them. -/
theorem cleanAll_append_empty {tail : List (List Char)}
    (h : ∀ raw ∈ tail, Text.trim (code raw) = []) (number offset : Nat)
    (raws : List (List Char)) :
    cleanAll number offset (raws ++ tail) = cleanAll number offset raws := by
  induction raws generalizing number offset with
  | nil => exact cleanAll_eq_nil_iff.mpr h
  | cons raw raws ih => rw [List.cons_append, cleanAll, cleanAll, ih]

/-- Comments and blank lines at the end change nothing. -/
theorem ofSource_append {tail : String} (h : ofSource tail = []) (source : String) :
    ofSource (source ++ "\n" ++ tail) = ofSource source := by
  have hsplit : (source ++ "\n" ++ tail).toList = source.toList ++ '\n' :: tail.toList := by
    simp
  rw [ofSource, hsplit, Text.pieces_append_cons]
  exact cleanAll_append_empty (cleanAll_eq_nil_iff.mp h) 1 0 _

end SourceLine

/-! ## Labels and instructions of a program -/

namespace SourceProgram

/-- An instruction starts at an offset. -/
def StartsAt (p : SourceProgram) (offset : Nat) : Prop :=
  ∃ before e after, p.emissions = before ++ e :: after ∧ codeSize before = offset

/-- A label has a line of its own, and no instruction follows it. -/
def Stranded (p : SourceProgram) (name : String) : Prop :=
  ∃ front rest, p = front ++ .label name :: rest ∧ emissions rest = []

/-- Each line of instructions has at least one. -/
def Coded (p : SourceProgram) : Prop := ∀ mark es, .code mark es ∈ p → es ≠ []

variable {p front rest : SourceProgram} {name : String} {n : Nat}

/-- Every line of code that was read has an instruction. -/
theorem coded_of_ofSource? {source : String} (h : ofSource? source = some p) : p.Coded := by
  intro mark es hmem
  obtain ⟨line, mnemonic, arguments, hexpand⟩ := exists_expand_of_mem h hmem
  obtain ⟨e, he, -⟩ := Expansion.exists_getLast? hexpand
  rintro rfl
  contradiction

/-- No instruction starts at the end of a program. -/
theorem StartsAt.lt_size (h : p.StartsAt n) : n < p.size := by
  obtain ⟨before, e, after, he, rfl⟩ := h
  have hpos : 0 < e.opcode.size := by
    unfold Opcode.size
    split <;> decide
  rw [size, he, codeSize_append, codeSize_cons]
  omega

theorem emissions_append_cons (front rest : SourceProgram) (e : SourceEntry) :
    emissions (front ++ e :: rest) = emissions front ++ (e.emissions ++ emissions rest) :=
  emissions_append front (e :: rest)

/-- A label waits after entries if the last one of them is this label. -/
theorem waitingAfter_eq_some_iff :
    p.waitingAfter none = some name ↔ ∃ front, p = front ++ [.label name] := by
  constructor
  · intro h
    rcases List.eq_nil_or_concat p with rfl | ⟨front, e, rfl⟩
    · contradiction
    · rw [List.concat_eq_append, waitingAfter_append] at h
      have he : e.waiting? = some name := h
      cases e with
      | label other =>
          cases he
          exact ⟨front, List.concat_eq_append⟩
      | definition _ _ => contradiction
      | code _ _ => contradiction
  · rintro ⟨front, rfl⟩
    rw [waitingAfter_append]
    rfl

/-- A label that is placed is placed by an entry. -/
theorem exists_of_mem_labels (h : (name, n) ∈ p.labels) :
    ∃ front e rest k, p = front ++ e :: rest ∧
      e.placed? (waitingAfter none front) = some (name, k) ∧ n = size front + k := by
  induction p using List.reverseRecOn with
  | nil => contradiction
  | append_singleton p e ih =>
      rw [labels_append] at h
      rcases List.mem_append.mp h with h | h
      · obtain ⟨front, e', rest, k, rfl, he, hn⟩ := ih h
        exact ⟨front, e', rest ++ [e], k, by simp, he, hn⟩
      · rw [labelsFrom, labelsFrom, List.append_nil] at h
        obtain ⟨⟨other, k⟩, hl, heq⟩ := List.mem_map.mp h
        cases heq
        exact ⟨p, e, [], k, rfl, Option.mem_toList.mp hl, rfl⟩

/-- A label that no instruction follows is taken by a variable line. -/
theorem Stranded.exists_definition (h : p.Stranded name) (hsound : p.LabelsSound)
    (hcoded : p.Coded) :
    ∃ front x value rest,
      p = front ++ .label name :: .definition x value :: rest ∧ emissions rest = [] := by
  obtain ⟨front, rest, rfl, hrest⟩ := h
  have hunblocked := (unblocked_append _ _ none).mp hsound.unblocked
  have hclosed := hsound.closed
  rw [waitingAfter_append] at hclosed
  cases rest with
  | nil => contradiction
  | cons e rest =>
      cases e with
      | label other => exact absurd hunblocked.2.2.1 (Option.some_ne_none name)
      | definition x value => exact ⟨front, x, value, rest, rfl, hrest⟩
      | code mark es =>
          have hes := hcoded mark es (by simp)
          exact absurd (List.append_eq_nil_iff.mp hrest).1 hes

/-- A label that no instruction follows is placed at the end. -/
theorem Stranded.label?_eq_size (h : p.Stranded name) (hsound : p.LabelsSound)
    (hcoded : p.Coded) : p.label? name = some p.size := by
  obtain ⟨front, x, value, rest, rfl, hrest⟩ := h.exists_definition hsound hcoded
  refine label?_of_mem hsound.distinct ?_
  have hsize : size (front ++ .label name :: .definition x value :: rest) = size front := by
    rw [size, emissions_append]
    show codeSize (emissions front ++ emissions rest) = _
    rw [hrest, List.append_nil, size]
  rw [hsize, labels_append]
  exact List.mem_append_right _ List.mem_cons_self

/-- A label that is found was placed. -/
theorem mem_labels_of_label? (h : p.label? name = some n) : (name, n) ∈ p.labels := by
  obtain ⟨l₁, l₂, hl, -⟩ := List.lookup_eq_some_iff.mp h
  simp [hl]

/-- The offset of a label is the start of an instruction exactly if one follows
the label. -/
theorem startsAt_iff (hsound : p.LabelsSound) (hcoded : p.Coded)
    (h : p.label? name = some n) : p.StartsAt n ↔ ¬p.Stranded name := by
  constructor
  · intro hstart hstranded
    have hend := hstranded.label?_eq_size hsound hcoded
    rw [h] at hend
    exact absurd hstart.lt_size (by simp [Option.some.inj hend])
  · intro hfollowed
    obtain ⟨front, e, rest, k, hp, hplaced, rfl⟩ := exists_of_mem_labels (mem_labels_of_label? h)
    cases e with
    | label other => contradiction
    | code mark es =>
        -- the label is on the last instruction of this line
        obtain ⟨w, -, heq⟩ := Option.map_eq_some_iff.mp hplaced
        cases heq
        have hes := hcoded mark es (by simp [hp])
        refine ⟨emissions front ++ es.dropLast, es.getLast hes, emissions rest, ?_, ?_⟩
        · conv_lhs => rw [hp, emissions_append_cons, SourceEntry.emissions,
            ← List.dropLast_append_getLast hes]
          simp
        · exact codeSize_append _ _
    | definition other value =>
        -- the label waited and is where the instruction after the variable starts
        obtain ⟨w, hw, heq⟩ := Option.map_eq_some_iff.mp hplaced
        cases heq
        obtain ⟨front, rfl⟩ := waitingAfter_eq_some_iff.mp hw
        have hemissions : p.emissions = emissions (front ++ [.label name]) ++ emissions rest := by
          rw [hp, emissions_append_cons, SourceEntry.emissions, List.nil_append]
        cases hrest : emissions rest with
        | nil =>
            exact absurd ⟨front, .definition other value :: rest, by simp [hp], hrest⟩ hfollowed
        | cons e after =>
            rw [hrest] at hemissions
            exact ⟨_, e, after, hemissions, rfl⟩

end SourceProgram

/-! ## Refusals as dangling -/

/-- The refusals of a label that no instruction follows. -/
def AssemblyError.IsDangling : AssemblyError → Prop
  | .danglingLabel .. => True
  | _ => False

/-- A step of assembly that refuses no label as dangling. -/
abbrev Patient {α : Type} (x : Except AssemblyError α) : Prop :=
  x.Avoids AssemblyError.IsDangling

/-- A range check never reports a dangling label. -/
theorem checkRange_patient (value : Int) (span : Span) : Patient (checkRange value span) := by
  unfold checkRange
  split
  · exact .ok _
  · exact .error id

/-- Neither does following names. -/
theorem Scope.resolveFrom_patient (s : Scope) (fuel : Nat) (visited : List String) (l : Literal)
    (span : Span) : Patient (s.resolveFrom fuel visited l span) := by
  fun_induction Scope.resolveFrom s fuel visited l span with
  | case1 | case2 | case7 => exact (checkRange_patient _ _).bind fun _ => .pure _
  | case3 | case4 | case8 => exact .error id
  | case5 _ _ _ _ _ _ _ ih => exact ih.bind fun _ => .pure _
  | case6 => exact .ok _

theorem Scope.resolve_patient (s : Scope) (l : Literal) (span : Span) :
    Patient (s.resolve l span) :=
  s.resolveFrom_patient _ _ l span

theorem Expansion.operand_patient (line : SourceLine) (token : Lexeme) :
    Patient (operand line token) := by
  unfold operand
  split
  · exact .ok _
  · exact .error id

/-- Expanding a line never reports a dangling label. -/
theorem Expansion.expand_patient (line : SourceLine) (mnemonic : Lexeme)
    (arguments : List Lexeme) : Patient (expand line mnemonic arguments) := by
  unfold expand
  repeat' split
  all_goals first
    | exact .ok _
    | exact .error id
    | exact (operand_patient _ _).bind fun _ => .pure _
    | exact (operand_patient _ _).bind fun _ => (operand_patient _ _).bind fun _ => .pure _

namespace Draft

theorem checkTarget_patient (op : Opcode) (value : Word) (span : Span) :
    Patient (checkTarget op value span) := by
  unfold checkTarget
  split
  · exact .error id
  · exact .ok _

theorem checkNoOpenLabel_patient (d : Draft) (name : String) (span : Span) :
    Patient (d.checkNoOpenLabel name span) := by
  unfold checkNoOpenLabel
  split
  · exact .error id
  · exact .ok _

theorem defineLabel?_patient (d : Draft) (label : Option (String × Span)) :
    Patient (d.defineLabel? label) := by
  unfold defineLabel? defineLabel
  repeat' split
  · exact .error id
  · exact .ok _
  · exact .ok _

theorem place_patient (d : Draft) (e : Emission) : Patient (d.place e) := by
  unfold place
  split
  · exact .ok _
  · refine (Scope.resolve_patient _ _ _).bind fun r => ?_
    dsimp only
    split
    · exact (checkTarget_patient _ _ _).bind fun _ => .pure _
    · exact .pure _

/-- Nor does placing what it was expanded to. -/
theorem placeAll_patient (d : Draft) (es : List Emission) : Patient (d.placeAll es) := by
  induction es generalizing d with
  | nil => exact .ok d
  | cons e es ih => exact (d.place_patient e).bind fun d' => ih d'

/-- A definition does not report a dangling label: it takes the open one. -/
theorem ingestVariable_patient (d : Draft) (line : SourceLine) (name value : Lexeme) :
    Patient (d.ingestVariable line name value) := by
  refine (defineLabel?_patient _ _).bind fun d' => ?_
  split
  · exact .error id
  · split
    · exact .pure _
    · exact .pure _

theorem takeLabel_patient (d : Draft) (line : SourceLine) (mark : Option Lexeme) :
    Patient (d.takeLabel line mark) := by
  cases mark with
  | none => exact .ok _
  | some name => exact (d.checkNoOpenLabel_patient _ _).bind fun _ => .pure _

theorem layOut_patient (d : Draft) (label : Option (String × Span)) (es : List Emission) :
    Patient (d.layOut label es) :=
  (d.placeAll_patient _).bind fun d₁ => (d₁.defineLabel?_patient label).bind fun d₂ =>
    d₂.placeAll_patient _

/-- Neither does an instruction, which takes the open label. -/
theorem ingestInstruction_patient (d : Draft) (line : SourceLine) (mark : Option Lexeme)
    (mnemonic : Lexeme) (arguments : List Lexeme) :
    Patient (d.ingestInstruction line mark mnemonic arguments) := by
  rw [ingestInstruction_eq]
  exact (d.takeLabel_patient line mark).bind fun s =>
    (Expansion.expand_patient line mnemonic arguments).bind fun es => s.2.layOut_patient s.1 es

/-- The first pass never reports a dangling label before the end. -/
theorem ingest_patient (d : Draft) (line : SourceLine) : Patient (d.ingest line) := by
  unfold ingest
  split
  · exact .error id
  · exact (d.checkNoOpenLabel_patient _ _).bind fun _ => .pure _
  · exact d.ingestVariable_patient line _ _
  · exact (d.ingestInstruction_patient line _ _ _).bind fun _ => .pure _

/-- No line is refused because of a label that no instruction follows. -/
theorem ingestAll_patient (d : Draft) (lines : List SourceLine) :
    Patient (d.ingestAll lines).value := by
  induction lines generalizing d with
  | nil => exact .ok d
  | cons line lines ih =>
      rw [value_ingestAll_cons]
      exact (d.ingest_patient line).bind fun next => ih next.value

theorem settle_patient (d : Draft) (q : Placed) : Patient (d.settle q) := by
  unfold settle
  split
  · exact .ok _
  · exact .ok _
  · exact (Scope.resolve_patient _ _ _).bind fun _ =>
      (checkTarget_patient _ _ _).bind fun _ => .pure _

/-- Nor does the second pass. -/
theorem emit_patient (d : Draft) (qs : List Placed) : Patient (d.emit qs) := by
  induction qs generalizing d with
  | nil => exact .ok _
  | cons q qs ih => exact (d.settle_patient q).bind fun _ => (ih _).bind fun _ => .pure _

/-- Nor does collecting the values for the symbols. -/
theorem valuesOf_patient (d : Draft) (names : List String) : Patient (d.valuesOf names) := by
  induction names with
  | nil => exact .ok _
  | cons name names ih => exact (Scope.resolve_patient _ _ _).bind fun _ => ih.bind fun _ => .pure _

/-- Finishing refuses the label that is still open as dangling, and no other. -/
theorem finish_eq_dangling_iff {d : Draft} {name : String} {span : Span} :
    d.finish = .error (.danglingLabel name span) ↔ d.openLabel = some (name, span) := by
  unfold finish
  split
  · next hopen => simp [hopen]
  · next hopen =>
    simp only [hopen, reduceCtorEq, iff_false]
    split
    · simp
    · refine fun h => ?_
      exact (((d.emit_patient _).bind fun r => (r.2.valuesOf_patient _).bind fun _ => .pure _)) _ h
        trivial

end Draft

/-- A label is refused as dangling exactly if all lines are taken in and the
label is the last of them. -/
theorem assemble_eq_dangling_iff (source : String) (name : String) :
    (∃ span, (assemble source).value = .error (.danglingLabel name span)) ↔
      (∃ d, (Draft.ingestAll {} (SourceLine.ofSource source)).value = .ok d) ∧
        ∃ front, SourceProgram.ofSource? source = some (front ++ [.label name]) := by
  have hpass := Draft.ingestAll_patient {} (SourceLine.ofSource source)
  show (∃ span, ((Draft.ingestAll {} (SourceLine.ofSource source)).value >>= Draft.finish) = _) ↔ _
  cases hd : (Draft.ingestAll {} (SourceLine.ofSource source)).value with
  | error e =>
      have hother := hpass e hd
      simp only [reduceCtorEq, exists_false, false_and, iff_false]
      rintro ⟨span, h⟩
      cases h
      exact hother trivial
  | ok d =>
      obtain ⟨p, hlines, hr⟩ := Draft.reflects_nil.ingestAll hd
      have hp : SourceProgram.ofSource? source = some p := hlines
      rw [List.nil_append] at hr
      have hfinish : ∀ span, ((.ok d : Except AssemblyError Draft) >>= Draft.finish) =
          .error (.danglingLabel name span) ↔ d.openLabel = some (name, span) :=
        fun _ => Draft.finish_eq_dangling_iff
      simp only [hfinish, hp, Option.some.injEq, Except.ok.injEq, exists_eq', true_and]
      rw [← SourceProgram.waitingAfter_eq_some_iff, ← hr.openLabel]
      simp

/-- Comments and blank lines at the end of a source change nothing. -/
theorem assemble_append {tail : String} (h : SourceLine.ofSource tail = []) (source : String) :
    assemble (source ++ "\n" ++ tail) = assemble source := by
  rw [assemble, assemble, SourceLine.ofSource_append h]

/-- When labels mark instructions.  In an accepted source a label marks an
instruction exactly if one follows it; a label that none follows is at the
end of the program, and a variable line comes right behind it.  A label is
refused as dangling exactly if every line is taken in and the label is the
last of them that says anything; comments and blank lines after it change
nothing. -/
theorem label_marks_iff_followed (source : String) :
    (∀ a, (assemble source).value = .ok a →
      ∃ p is, SourceProgram.ofSource? source = some p ∧ Assembles p is a ∧
        (∀ name offset, a.symbols.labels.find? name = some offset →
          (p.StartsAt offset.toNat ↔ ¬p.Stranded name)) ∧
        ∀ name, p.Stranded name →
          (∃ offset, a.symbols.labels.find? name = some offset ∧ offset.toNat = p.size) ∧
            ∃ front x value rest,
              p = front ++ .label name :: .definition x value :: rest) ∧
    (∀ name, (∃ span, (assemble source).value = .error (.danglingLabel name span)) ↔
      (∃ d, (Draft.ingestAll {} (SourceLine.ofSource source)).value = .ok d) ∧
        ∃ front, SourceProgram.ofSource? source = some (front ++ [.label name])) ∧
    ∀ tail, SourceLine.ofSource tail = [] →
      assemble (source ++ "\n" ++ tail) = assemble source := by
  refine ⟨fun a ha => ?_, assemble_eq_dangling_iff source, fun tail h => assemble_append h source⟩
  obtain ⟨p, is, hp, h⟩ := assembles_of_assemble ha
  have hcoded := SourceProgram.coded_of_ofSource? hp
  have hoffset {n : Nat} {name : String} (hn : p.label? name = some n) :
      (Draft.offsetAddress n).toNat = n :=
    Draft.toNat_offsetAddress (Nat.le_trans (SourceProgram.le_size_of_label? hn) h.fits)
  refine ⟨p, is, hp, h, fun name offset hfind => ?_, fun name hstranded => ⟨?_, ?_⟩⟩
  · rw [h.labels] at hfind
    obtain ⟨n, hn, rfl⟩ := Option.map_eq_some_iff.mp hfind
    rw [hoffset hn]
    exact SourceProgram.startsAt_iff h.sound hcoded hn
  · have hn := hstranded.label?_eq_size h.sound hcoded
    exact ⟨Draft.offsetAddress p.size, by rw [h.labels, hn, Option.map_some], hoffset hn⟩
  · obtain ⟨front, x, value, rest, hrest, -⟩ := hstranded.exists_definition h.sound hcoded
    exact ⟨front, x, value, rest, hrest⟩

/-- A label with an instruction behind it and one with a definition: both are
symbols, but nothing starts where the second one points. -/
theorem label_marks_iff_followed_two :
    ∃ a p, (assemble "hlt\nhere: ldi #1\nend:\nX = #1").value = .ok a ∧
      SourceProgram.ofSource? "hlt\nhere: ldi #1\nend:\nX = #1" = some p ∧
      a.symbols.labels.find? "HERE" = some 1 ∧ p.StartsAt 1 ∧
      a.symbols.labels.find? "END" = some 6 ∧ ¬p.StartsAt 6 := by
  obtain ⟨a, ha⟩ : ∃ a, (assemble "hlt\nhere: ldi #1\nend:\nX = #1").value = .ok a :=
    Except.exists_eq_ok_of_isOk (by decide +kernel)
  have hfind (name : String) (offset : Address)
      (h : (assemble "hlt\nhere: ldi #1\nend:\nX = #1").value.map
        (·.symbols.labels.find? name) = .ok (some offset)) :
      a.symbols.labels.find? name = some offset := by
    rw [ha] at h
    exact Except.ok.inj h
  have hhere := hfind "HERE" 1 (by decide +kernel)
  have hend := hfind "END" 6 (by decide +kernel)
  obtain ⟨p, is, hp, -, hmarks, -⟩ :=
    (label_marks_iff_followed "hlt\nhere: ldi #1\nend:\nX = #1").1 a ha
  have hp' : SourceProgram.ofSource? "hlt\nhere: ldi #1\nend:\nX = #1" =
      some [.code none [⟨.hlt, none⟩], .code (some "HERE") [⟨.ldi, some ⟨.decimal 1, ⟨14, 2⟩⟩⟩],
        .label "END", .definition "X" (.decimal 1)] := by
    decide +kernel
  obtain rfl := Option.some.inj (hp.symm.trans hp')
  refine ⟨a, _, ha, hp, hhere, ?_, hend, ?_⟩
  · refine (hmarks "HERE" 1 hhere).mpr ?_
    rintro ⟨front, rest, h, -⟩
    have hmem : SourceEntry.label "HERE" ∈ front ++ .label "HERE" :: rest := by simp
    rw [← h] at hmem
    revert hmem
    decide
  · exact fun hstart => (hmarks "END" 6 hend).mp hstart ⟨[_, _], [_], rfl, rfl⟩

/-- A label at the end is accepted, and marks no instruction, if a variable
line comes behind it. -/
theorem label_at_end_accepted :
    ∃ a p, (assemble "hlt\nend:\nX = #1\n").value = .ok a ∧
      SourceProgram.ofSource? "hlt\nend:\nX = #1\n" = some p ∧ p.Stranded "END" ∧
      a.symbols.labels.find? "END" = some 1 ∧ ¬p.StartsAt 1 := by
  obtain ⟨a, ha⟩ : ∃ a, (assemble "hlt\nend:\nX = #1\n").value = .ok a :=
    Except.exists_eq_ok_of_isOk (by decide +kernel)
  have hend : (assemble "hlt\nend:\nX = #1\n").value.map (·.symbols.labels.find? "END") =
      .ok (some 1) := by
    decide +kernel
  rw [ha] at hend
  refine ⟨a, [.code none [⟨.hlt, none⟩], .label "END", .definition "X" (.decimal 1)], ha,
    by decide +kernel, ⟨[_], [_], rfl, rfl⟩, Except.ok.inj hend, ?_⟩
  exact fun hstart => absurd hstart.lt_size (by decide)

end StackRisc
