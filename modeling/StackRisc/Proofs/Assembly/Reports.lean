import StackRisc.Proofs.Assembly.SymbolTable
import StackRisc.Proofs.Source.Places
import StackRisc.Proofs.Text.Literal

/-!
# StackRisc.Proofs.Assembly.Reports

The stretches that refusals point at.  Every stretch comes from a word of a
cleaned line or from the whole line, and it travels with what it was read as
through variables, labels and pending operands; so it shows what the refusal
talks about:

* `ShowsWord` — a stretch shows a word that a line has in some role;
* `AssemblyError.PointsInto` — what the stretches of a refusal show;
* `Draft.ReadFrom` — the stretches of a draft come from a source;
* `Draft.ReadFrom.ingest_points`, `Draft.ReadFrom.ingestAll_points` — one line
  and all lines keep this, or are refused with stretches that show what they
  should;
* `stretches_of_refusal` — all of it for a source.
-/

namespace StackRisc

/-! ## Words in their roles -/

namespace Statement

/-- A label, alone or in front of an instruction. -/
inductive IsLabel : Statement → Lexeme → Prop where
  | alone (name : Lexeme) : IsLabel (.label name) name
  | inFront (name mnemonic : Lexeme) (arguments : List Lexeme) :
      IsLabel (.instruction (some name) mnemonic arguments) name

inductive IsMnemonic : Statement → Lexeme → Prop where
  | mk (mark : Option Lexeme) (mnemonic : Lexeme) (arguments : List Lexeme) :
      IsMnemonic (.instruction mark mnemonic arguments) mnemonic

/-- The value in the definition of a variable. -/
inductive IsValue : Statement → Lexeme → Prop where
  | mk (name value : Lexeme) : IsValue (.definition name value) value

/-- An operand of an instruction. -/
inductive IsOperand : Statement → Lexeme → Prop where
  | mk (mark : Option Lexeme) (mnemonic : Lexeme) {arguments : List Lexeme} {w : Lexeme} :
      w ∈ arguments → IsOperand (.instruction mark mnemonic arguments) w

/-- The operand of a branch. -/
inductive IsTarget : Statement → Lexeme → Prop where
  | mk (mark : Option Lexeme) {mnemonic : Lexeme} (w : Lexeme) :
      Opcode.ofName? mnemonic.text = some .bge → IsTarget (.instruction mark mnemonic [w]) w

/-- An operand or a value. -/
def IsToken (statement : Statement) (w : Lexeme) : Prop :=
  statement.IsOperand w ∨ statement.IsValue w

variable {statement : Statement} {w : Lexeme}

theorem IsLabel.mem_words (h : statement.IsLabel w) : w ∈ statement.words := by
  cases h <;> simp [words]

theorem IsMnemonic.mem_words (h : statement.IsMnemonic w) : w ∈ statement.words := by
  cases h
  simp [words]

theorem IsValue.mem_words (h : statement.IsValue w) : w ∈ statement.words := by
  cases h
  simp [words]

theorem IsOperand.mem_words (h : statement.IsOperand w) : w ∈ statement.words := by
  cases h with
  | mk _ _ hw => simp [words, hw]

theorem IsTarget.mem_words (h : statement.IsTarget w) : w ∈ statement.words := by
  cases h
  simp [words]

end Statement

/-- A stretch of a source shows a word that a line of it has in some role. -/
def ShowsWord (source : String) (role : Statement → Lexeme → Prop) (line : Nat) (span : Span)
    (text : String) : Prop :=
  Shows source.toList line span text.toList ∧
    ∃ l ∈ SourceLine.ofSource source, ∃ statement w, l.number = line ∧
      Statement.read? l.text = some statement ∧ role statement w ∧ w.text = text ∧
        l.spanOf w = span

/-- What the stretches of a refusal show: the whole line or the word that it
talks about, and of what that word says the part that was refused. -/
def AssemblyError.PointsInto (source : String) : AssemblyError → Prop
  | .malformed line .unreadable span | .malformed line (.arity ..) span =>
    ∃ l ∈ SourceLine.ofSource source, l.number = line ∧ l.span = span ∧
      Shows source.toList line span l.text
  | .malformed line (.badValue text) span =>
    ShowsWord source Statement.IsValue line span text ∧ Literal.read? text.toList = none
  | .malformed line (.badOperand text) span =>
    ShowsWord source Statement.IsOperand line span text ∧ Literal.read? text.toList = none
  | .openLabel name pending span pendingSpan =>
    (∃ line, ShowsWord source Statement.IsLabel line span name) ∧
      ∃ line, ShowsWord source Statement.IsLabel line pendingSpan pending
  | .duplicateLabel name span first =>
    (∃ line, ShowsWord source Statement.IsLabel line span name) ∧
      ∃ line, ShowsWord source Statement.IsLabel line first name
  | .danglingLabel name span => ∃ line, ShowsWord source Statement.IsLabel line span name
  | .outOfRange value .word span =>
    ∃ line text, ShowsWord source Statement.IsToken line span text ∧
      (Literal.read? text.toList).bind Literal.number? = some value
  | .outOfRange _ .program span =>
    ∃ line text, ShowsWord source Statement.IsTarget line span text
  | .unknownMnemonic mnemonic span =>
    ∃ line, ShowsWord source Statement.IsMnemonic line span mnemonic
  | .unresolved name span | .circular name span =>
    ∃ line, ShowsWord source Statement.IsToken line span name
  | .tooLarge _ => True

section

variable {source : String} {line : SourceLine} {statement : Statement} {w : Lexeme}
  {role : Statement → Lexeme → Prop}

/-- A word of a line of the source is shown at its span. -/
theorem showsWord (hline : line ∈ SourceLine.ofSource source)
    (hread : Statement.read? line.text = some statement) (hrole : role statement w)
    (hw : w ∈ statement.words) :
    ShowsWord source role line.number (line.spanOf w) w.text :=
  ⟨SourceLine.shows_spanOf (SourceLine.shows_of_mem hline) (Statement.sits_of_read? hread hw),
    line, hline, statement, w, rfl, hread, hrole, rfl, rfl⟩

end

/-! ## Operands -/

/-- A step of assembly that is refused only with stretches that show what they
should. -/
abbrev Points {α : Type} (source : String) (P : α → Prop) (x : Except AssemblyError α) : Prop :=
  x.Yields P (AssemblyError.PointsInto source)

/-- An operand is the zero that a macro puts in, or it is a token of the
source. -/
def Operand.ReadFrom (source : String) (o : Operand) : Prop :=
  o.literal = .hex 0 ∨
    ∃ line text, ShowsWord source Statement.IsToken line o.span text ∧
      Literal.read? text.toList = some o.literal

/-- The operand of an emission, and a branch target in particular, comes from
the source. -/
def Operand.ReadFor (source : String) (op : Opcode) (o : Operand) : Prop :=
  o.ReadFrom source ∧
    (op = .bge → ∃ line text, ShowsWord source Statement.IsTarget line o.span text)

variable {source : String}

/-- A number is refused where it is written. -/
theorem Operand.ReadFrom.checkRange_points {o : Operand} (h : o.ReadFrom source) {v : Int}
    (hv : o.literal.number? = some v) : Points source (fun _ => True) (checkRange v o.span) := by
  unfold checkRange
  split
  · trivial
  · next hrange =>
    rcases h with hzero | ⟨line, text, hshows, hread⟩
    · rw [hzero] at hv
      cases hv
      exact absurd (by decide) hrange
    · exact ⟨line, text, hshows, by rw [hread, Option.bind_some, hv]⟩

/-- A name that an operand refers to is shown at its span. -/
theorem Operand.ReadFrom.showsWord_name {name : String} {span : Span}
    (h : Operand.ReadFrom source ⟨.reference name, span⟩) :
    ∃ line, ShowsWord source Statement.IsToken line span name := by
  rcases h with hzero | ⟨line, text, hshows, hread⟩
  · contradiction
  · obtain rfl : name = text := String.toList_injective (Literal.toList_of_read? hread)
    exact ⟨line, hshows⟩

/-- A branch past the end of the program is refused at its target. -/
theorem Operand.ReadFor.checkTarget_points {op : Opcode} {o : Operand}
    (h : o.ReadFor source op) (v : Word) :
    Points source (fun _ => True) (Draft.checkTarget op v o.span) := by
  unfold Draft.checkTarget
  split
  · next hfar => exact h.2 hfar.1
  · trivial

/-- The operands of a scope come from the source, and its labels have offsets
in range. -/
structure Scope.ReadFrom (source : String) (s : Scope) : Prop where
  definitions : ∀ name definition, s.definitions.find? name = some definition →
    Operand.ReadFrom source ⟨definition.literal, definition.span⟩
  offsets : ∀ labels, s.labels = some labels → ∀ name label, labels.find? name = some label →
    label.offset.toNat ≤ Word.largest

/-- A chain is refused at the token where it breaks off, or at the number that
it ends in. -/
theorem Scope.ReadFrom.resolveFrom_points {s : Scope} (hs : s.ReadFrom source) (fuel : Nat)
    (visited : List String) {l : Literal} {span : Span} (ho : Operand.ReadFrom source ⟨l, span⟩) :
    Points source (fun _ => True) (s.resolveFrom fuel visited l span) := by
  fun_induction Scope.resolveFrom s fuel visited l span with
  | case1 | case2 => exact (ho.checkRange_points rfl).bind fun _ _ => trivial
  | case3 | case4 | case8 => exact ho.showsWord_name
  | case5 _ _ _ definition hfind _ _ ih =>
      exact (ih (hs.definitions _ definition hfind)).bind fun _ _ => trivial
  | case6 => trivial
  | case7 _ _ _ _ _ labels hlabels label hfind =>
      have hoffset := hs.offsets labels hlabels _ label hfind
      rw [checkRange, if_pos ⟨Int.natCast_nonneg _, by exact_mod_cast hoffset⟩]
      trivial

/-! ## Emissions -/

/-- The operand of an emission comes from the source. -/
def Emission.ReadFrom (source : String) (e : Emission) : Prop :=
  ∀ o ∈ e.operand, o.ReadFor source e.opcode

/-- A whole line is shown at its span. -/
theorem pointsInto_line {line : SourceLine} (hline : line ∈ SourceLine.ofSource source) :
    ∃ l ∈ SourceLine.ofSource source, l.number = line.number ∧ l.span = line.span ∧
      Shows source.toList line.number line.span l.text :=
  ⟨line, hline, rfl, rfl, SourceLine.shows_of_mem hline⟩

namespace Expansion

variable {line : SourceLine} {mark : Option Lexeme} {mnemonic : Lexeme}
  {arguments : List Lexeme}

/-- An operand is read where it is written. -/
theorem operand_points (hline : line ∈ SourceLine.ofSource source)
    (hread : Statement.read? line.text = some (.instruction mark mnemonic arguments))
    {token : Lexeme} (htoken : token ∈ arguments) :
    Points source (fun o => o.ReadFrom source ∧ o.span = line.spanOf token)
      (operand line token) := by
  have hrole : Statement.IsOperand (.instruction mark mnemonic arguments) token :=
    .mk mark mnemonic htoken
  unfold operand
  split
  · next literal hliteral =>
    exact ⟨.inr ⟨_, _, showsWord hline hread (.inl hrole) hrole.mem_words, hliteral⟩, rfl⟩
  · next hnone => exact ⟨showsWord hline hread hrole hrole.mem_words, hnone⟩

/-- All operands of a store macro are read from the source. -/
theorem storeImmediate_readFrom {address value : Operand} (ha : address.ReadFrom source)
    (hv : value.ReadFrom source) : ∀ e ∈ storeImmediate address value, e.ReadFrom source := by
  have hload {o : Operand} (ho : o.ReadFrom source) :
      Emission.ReadFrom source ⟨.ldi, some o⟩ := by
    rintro _ ⟨⟩
    exact ⟨ho, fun h => nomatch h⟩
  have hbare (op : Opcode) : Emission.ReadFrom source ⟨op, none⟩ := fun _ h => nomatch h
  simp only [storeImmediate, List.forall_mem_cons]
  exact ⟨hload hv, hbare .push, hload ha, hbare .str, fun _ h => nomatch h⟩

/-- The operands of what a line stands for come from the line. -/
theorem expand_points (hline : line ∈ SourceLine.ofSource source)
    (hread : Statement.read? line.text = some (.instruction mark mnemonic arguments)) :
    Points source (fun es => ∀ e ∈ es, e.ReadFrom source) (expand line mnemonic arguments) := by
  have hoperand {token : Lexeme} (htoken : token ∈ arguments) := operand_points hline hread htoken
  have hbare (op : Opcode) : ∀ e ∈ [(⟨op, none⟩ : Emission)], e.ReadFrom source :=
    fun e he o ho => by
      obtain rfl := List.mem_singleton.mp he
      contradiction
  unfold expand
  split
  · split
    · exact (hoperand List.mem_cons_self).bind fun value hvalue =>
        storeImmediate_readFrom (.inl rfl) hvalue.1
    · exact pointsInto_line hline
  · split
    · exact ⟨line.number, showsWord hline hread (.mk mark mnemonic arguments)
        (Statement.IsMnemonic.mk mark mnemonic arguments).mem_words⟩
    · split
      · exact hbare .str
      · refine (hoperand List.mem_cons_self).bind fun address haddress => ?_
        refine (hoperand (List.mem_cons_of_mem _ List.mem_cons_self)).bind fun value hvalue => ?_
        exact storeImmediate_readFrom haddress.1 hvalue.1
      · exact pointsInto_line hline
    · next op _ hop =>
      split
      · split
        · next token =>
          refine (hoperand List.mem_cons_self).bind fun value hvalue => ?_
          intro e he o ho
          obtain rfl := List.mem_singleton.mp he
          cases ho
          refine ⟨hvalue.1, fun hbge => ?_⟩
          have htarget : Statement.IsTarget (.instruction mark mnemonic [token]) token :=
            .mk mark token (hop.trans (congrArg some hbge))
          rw [hvalue.2]
          exact ⟨_, _, showsWord hline hread htarget htarget.mem_words⟩
        · exact pointsInto_line hline
      · split
        · exact hbare op
        · exact pointsInto_line hline

end Expansion

/-! ## First pass -/

/-- The stretches of a draft come from a source. -/
structure Draft.ReadFrom (source : String) (d : Draft) : Prop where
  definitions : ∀ name definition, d.definitions.find? name = some definition →
    Operand.ReadFrom source ⟨definition.literal, definition.span⟩
  labels : ∀ name label, d.labels.find? name = some label →
    ∃ line, ShowsWord source Statement.IsLabel line label.span name
  openLabel : ∀ l ∈ d.openLabel, ∃ line, ShowsWord source Statement.IsLabel line l.2 l.1
  pending : ∀ q ∈ d.placed, ∀ o, q.operand = some (.pending o) → o.ReadFor source q.opcode

/-- What becomes of an operand from the source; if it is left pending it is
still the same. -/
theorem Emission.ReadFrom.slot_points {e : Emission} (he : e.ReadFrom source)
    {definitions : NameTable VariableDefinition}
    (hdefinitions : Scope.ReadFrom source ⟨definitions, none⟩) :
    Points source (fun s => ∀ o, s.1 = some (.pending o) → o.ReadFor source e.opcode)
      (e.slot definitions) := by
  unfold Emission.slot
  split
  · exact fun _ h => nomatch h
  · next operand hoperand =>
    have ho := he operand hoperand
    refine (hdefinitions.resolveFrom_points _ _ ho.1).bind fun r _ => ?_
    split
    · exact (ho.checkTarget_points _).bind fun _ _ _ h => nomatch h
    · rintro _ ⟨⟩
      exact ho

namespace Draft

variable {d : Draft}

/-- An empty draft holds nothing. -/
theorem readFrom_empty : Draft.ReadFrom source {} where
  definitions _ _ h := nomatch h
  labels _ _ h := nomatch h
  openLabel _ h := nomatch h
  pending _ h := nomatch h

namespace ReadFrom

theorem closeLabel (hd : d.ReadFrom source) : d.closeLabel.ReadFrom source :=
  { hd with openLabel := fun _ h => nomatch h }

theorem append (hd : d.ReadFrom source) {op : Opcode} {slot : Option Slot}
    (hslot : ∀ o, slot = some (.pending o) → o.ReadFor source op) (through : List String) :
    ((d.remember through).append op slot).ReadFrom source :=
  { hd with
    pending := by
      intro q hq
      rcases Array.mem_push.mp hq with hq | rfl
      · exact hd.pending q hq
      · exact hslot }

/-- Placing an emission reports only places in the source. -/
theorem place_points (hd : d.ReadFrom source) {e : Emission} (he : e.ReadFrom source) :
    Points source (Draft.ReadFrom source) (d.place e) := by
  rw [place_eq]
  exact (he.slot_points ⟨hd.definitions, fun _ h => nomatch h⟩).map fun s hs => hd.append hs s.2

/-- So does placing all emissions of a line. -/
theorem placeAll_points (hd : d.ReadFrom source) {es : List Emission}
    (hes : ∀ e ∈ es, e.ReadFrom source) :
    Points source (Draft.ReadFrom source) (d.placeAll es) := by
  induction es generalizing d with
  | nil => exact hd
  | cons e es ih =>
      obtain ⟨he, hes⟩ := List.forall_mem_cons.mp hes
      exact (hd.place_points he).bind fun d' hd' => ih hd' hes

/-- A label that waits is reported where it was read. -/
theorem checkNoOpenLabel_points (hd : d.ReadFrom source) {name : String} {span : Span}
    (h : ∃ line, ShowsWord source Statement.IsLabel line span name) :
    Points source (fun _ => True) (d.checkNoOpenLabel name span) := by
  unfold checkNoOpenLabel
  split
  · next hopen => exact ⟨h, hd.openLabel _ hopen⟩
  · trivial

/-- A repeated label is reported at both of its places. -/
theorem defineLabel?_points (hd : d.ReadFrom source) {label : Option (String × Span)}
    (hlabel : ∀ l ∈ label, ∃ line, ShowsWord source Statement.IsLabel line l.2 l.1) :
    Points source (Draft.ReadFrom source) (d.defineLabel? label) := by
  cases label with
  | none => exact hd
  | some l =>
      have hl := hlabel l rfl
      show Points source (Draft.ReadFrom source) (d.defineLabel l.1 l.2)
      unfold defineLabel
      split
      · next first hfirst => exact ⟨hl, hd.labels l.1 first hfirst⟩
      · refine { hd with labels := fun name label hfind => ?_ }
        rw [NameTable.find?_insert] at hfind
        split at hfind
        · next heq =>
          cases hfind
          exact heq ▸ hl
        · exact hd.labels name label hfind

/-- Laying out a line reports only places in the source. -/
theorem layOut_points (hd : d.ReadFrom source) {label : Option (String × Span)}
    (hlabel : ∀ l ∈ label, ∃ line, ShowsWord source Statement.IsLabel line l.2 l.1)
    {es : List Emission} (hes : ∀ e ∈ es, e.ReadFrom source) :
    Points source (Draft.ReadFrom source) (d.layOut label es) := by
  have hfront : ∀ e ∈ es.dropLast, e.ReadFrom source :=
    fun e he => hes e (List.dropLast_subset es he)
  have hlast : ∀ e ∈ es.getLast?.toList, e.ReadFrom source :=
    fun e he => hes e (List.mem_of_getLast? (Option.mem_toList.mp he))
  refine (hd.placeAll_points hfront).bind fun d₁ hd₁ => ?_
  exact (hd₁.defineLabel?_points hlabel).bind fun d₂ hd₂ => hd₂.placeAll_points hlast

/-- Definitions are remembered with their place in the source. -/
theorem defineVariable (hd : d.ReadFrom source) {name : String}
    {definition : VariableDefinition}
    (h : Operand.ReadFrom source ⟨definition.literal, definition.span⟩) :
    (d.defineVariable name definition).ReadFrom source :=
  { hd with
    definitions := by
      intro other definition' hfind
      rw [Draft.defineVariable, NameTable.find?_insert] at hfind
      split at hfind
      · cases hfind
        exact h
      · exact hd.definitions other definition' hfind }

end ReadFrom

section

variable {line : SourceLine}

/-- A definition is refused with places in the source. -/
theorem ReadFrom.ingestVariable_points (hd : d.ReadFrom source)
    (hline : line ∈ SourceLine.ofSource source) {name value : Lexeme}
    (hread : Statement.read? line.text = some (.definition name value)) :
    Points source (fun next => next.value.ReadFrom source) (d.ingestVariable line name value) := by
  have hvalue : Statement.IsValue (.definition name value) value := .mk name value
  refine (hd.closeLabel.defineLabel?_points hd.openLabel).bind fun d' hd' => ?_
  split
  · next hnone => exact ⟨showsWord hline hread hvalue hvalue.mem_words, hnone⟩
  · next literal hliteral =>
    split
    · exact hd'
    · exact hd'.defineVariable
        (.inr ⟨_, _, showsWord hline hread (.inr hvalue) hvalue.mem_words, hliteral⟩)

/-- A label is refused with places in the source, and handed on with its own. -/
theorem ReadFrom.takeLabel_points (hd : d.ReadFrom source)
    (hline : line ∈ SourceLine.ofSource source) {mark : Option Lexeme} {mnemonic : Lexeme}
    {arguments : List Lexeme}
    (hread : Statement.read? line.text = some (.instruction mark mnemonic arguments)) :
    Points source (fun s => s.2.ReadFrom source ∧
        ∀ l ∈ s.1, ∃ line, ShowsWord source Statement.IsLabel line l.2 l.1)
      (d.takeLabel line mark) := by
  cases mark with
  | none => exact ⟨hd.closeLabel, hd.openLabel⟩
  | some name =>
      have hname : Statement.IsLabel (.instruction (some name) mnemonic arguments) name :=
        .inFront name mnemonic arguments
      have hshows := showsWord hline hread hname hname.mem_words
      refine (hd.checkNoOpenLabel_points ⟨_, hshows⟩).bind fun _ _ => ⟨hd, ?_⟩
      rintro _ ⟨⟩
      exact ⟨_, hshows⟩

/-- An instruction is refused with places in the source. -/
theorem ReadFrom.ingestInstruction_points (hd : d.ReadFrom source)
    (hline : line ∈ SourceLine.ofSource source) {mark : Option Lexeme} {mnemonic : Lexeme}
    {arguments : List Lexeme}
    (hread : Statement.read? line.text = some (.instruction mark mnemonic arguments)) :
    Points source (Draft.ReadFrom source) (d.ingestInstruction line mark mnemonic arguments) := by
  rw [ingestInstruction_eq]
  refine (hd.takeLabel_points hline hread).bind fun s hs => ?_
  exact (Expansion.expand_points hline hread).bind fun es hes => hs.1.layOut_points hs.2 hes

/-- One line keeps the stretches of a draft in the source, or is refused with
stretches that show what they should. -/
theorem ReadFrom.ingest_points (hd : d.ReadFrom source)
    (hline : line ∈ SourceLine.ofSource source) :
    Points source (fun next => next.value.ReadFrom source) (d.ingest line) := by
  unfold Draft.ingest
  split
  · exact pointsInto_line hline
  · next name hread =>
    have hname : Statement.IsLabel (.label name) name := .alone name
    have hshows := showsWord hline hread hname hname.mem_words
    refine (hd.checkNoOpenLabel_points ⟨_, hshows⟩).bind fun _ _ => ?_
    refine { hd with openLabel := ?_ }
    rintro _ ⟨⟩
    exact ⟨_, hshows⟩
  · next hread => exact hd.ingestVariable_points hline hread
  · next hread => exact (hd.ingestInstruction_points hline hread).bind fun d' hd' => hd'

end

/-- All lines keep the stretches of a draft in the source, or one is refused. -/
theorem ReadFrom.ingestAll_points (hd : d.ReadFrom source) {lines : List SourceLine}
    (hlines : ∀ line ∈ lines, line ∈ SourceLine.ofSource source) :
    Points source (Draft.ReadFrom source) (d.ingestAll lines).value := by
  induction lines generalizing d with
  | nil => exact hd
  | cons line lines ih =>
      obtain ⟨hline, hlines⟩ := List.forall_mem_cons.mp hlines
      rw [value_ingestAll_cons]
      exact (hd.ingest_points hline).bind fun next hnext => ih hnext hlines

/-! ## Second pass -/

/-- An instruction is refused where its operand is written. -/
theorem settle_points (hs : d.scope.ReadFrom source) {q : Placed}
    (hq : ∀ o, q.operand = some (.pending o) → o.ReadFor source q.opcode) :
    Points source (fun _ => True) (d.settle q) := by
  unfold settle
  split
  · trivial
  · trivial
  · next operand hpending =>
    have ho := hq operand hpending
    refine (hs.resolveFrom_points _ _ ho.1).bind fun r _ => ?_
    exact (ho.checkTarget_points _).bind fun _ _ => trivial

/-- The second pass refuses operands at their places in the source. -/
theorem emit_points (hs : d.scope.ReadFrom source) {qs : List Placed}
    (hqs : ∀ q ∈ qs, ∀ o, q.operand = some (.pending o) → o.ReadFor source q.opcode) :
    Points source (fun _ => True) (d.emit qs) := by
  induction qs generalizing d with
  | nil => trivial
  | cons q qs ih =>
      obtain ⟨hq, hqs⟩ := List.forall_mem_cons.mp hqs
      refine (settle_points hs hq).bind fun r _ => ?_
      exact (ih (d := d.remember r.2) hs hqs).bind fun _ _ => trivial

/-- The end of a source is refused at a label, or where an operand is
written. -/
theorem Reflects.finish_points {p : SourceProgram} (hr : d.Reflects p) (hd : d.ReadFrom source)
    {e : AssemblyError} (h : d.finish = .error e) : e.PointsInto source := by
  rcases hr.finish_eq_error_iff.mp h with ⟨name, span, hopen, rfl⟩ | ⟨-, ⟨-, rfl⟩ | ⟨hfits, h⟩⟩
  · exact hd.openLabel (name, span) hopen
  · trivial
  · have hs : d.scope.ReadFrom source := by
      refine ⟨hd.definitions, ?_⟩
      rintro _ ⟨⟩ name label hfind
      exact Nat.le_trans (hr.offset_le (hr.size ▸ hfits) hfind) (by decide)
    have hemit := emit_points hs fun q (hq : q ∈ d.placed.toList) =>
      hd.pending q (Array.mem_toList_iff.mp hq)
    rwa [h] at hemit

end Draft

/-! ## Whole sources -/

/-- The stretches of a refusal that points into a source are stretches of it. -/
theorem AssemblyError.PointsInto.shows {e : AssemblyError} (h : e.PointsInto source)
    {label : Span × String} (hlabel : label ∈ e.labels) :
    ∃ line text, Shows source.toList line label.1 text := by
  cases e with
  | malformed line cause span =>
      obtain rfl := List.mem_singleton.mp hlabel
      cases cause with
      | unreadable | arity =>
          obtain ⟨l, -, -, -, hshows⟩ := h
          exact ⟨line, l.text, hshows⟩
      | badValue text | badOperand text => exact ⟨line, text.toList, h.1.1⟩
  | openLabel name pending span pendingSpan =>
      obtain ⟨⟨line, hspan⟩, line', hpending⟩ := h
      rcases List.mem_pair.mp hlabel with rfl | rfl
      · exact ⟨line, name.toList, hspan.1⟩
      · exact ⟨line', pending.toList, hpending.1⟩
  | duplicateLabel name span first =>
      obtain ⟨⟨line, hspan⟩, line', hfirst⟩ := h
      rcases List.mem_pair.mp hlabel with rfl | rfl
      · exact ⟨line, name.toList, hspan.1⟩
      · exact ⟨line', name.toList, hfirst.1⟩
  | outOfRange value range span =>
      obtain rfl := List.mem_singleton.mp hlabel
      cases range with
      | word =>
          obtain ⟨line, text, hspan, -⟩ := h
          exact ⟨line, text.toList, hspan.1⟩
      | program =>
          obtain ⟨line, text, hspan⟩ := h
          exact ⟨line, text.toList, hspan.1⟩
  | danglingLabel name | unknownMnemonic name | unresolved name | circular name =>
      obtain rfl := List.mem_singleton.mp hlabel
      obtain ⟨line, hspan⟩ := h
      exact ⟨line, name.toList, hspan.1⟩
  | tooLarge size => contradiction

/-- A refused source is refused with stretches that lie in it, between its
characters, and that show what the refusal is about. -/
theorem stretches_of_refusal {e : AssemblyError} (h : (assemble source).value = .error e) :
    e.PointsInto source ∧
      ∀ label ∈ e.labels, ∃ line text, Shows source.toList line label.1 text := by
  have hpoints : e.PointsInto source := by
    have hempty : Draft.ReadFrom source {} := Draft.readFrom_empty
    have hfirst := hempty.ingestAll_points fun line (hline : line ∈ SourceLine.ofSource source) =>
      hline
    have h : ((Draft.ingestAll {} (SourceLine.ofSource source)).value >>= Draft.finish) =
        .error e := h
    cases hdraft : (Draft.ingestAll {} (SourceLine.ofSource source)).value with
    | error e' =>
        rw [hdraft] at hfirst h
        cases h
        exact hfirst
    | ok d =>
        rw [hdraft] at hfirst h
        obtain ⟨p, -, hr⟩ := Draft.reflects_nil.ingestAll hdraft
        exact hr.finish_points hfirst h
  exact ⟨hpoints, fun label hlabel => hpoints.shows hlabel⟩

/-- A label that is defined twice, the second time behind blanks and in
another case: both stretches show it. -/
theorem stretches_of_repeated_label :
    (assemble "here: hlt\r\n  Here: hlt").value =
        .error (.duplicateLabel "HERE" ⟨13, 4⟩ ⟨0, 4⟩) ∧
      AssemblyError.PointsInto "here: hlt\r\n  Here: hlt"
        (.duplicateLabel "HERE" ⟨13, 4⟩ ⟨0, 4⟩) := by
  have hrefused : (assemble "here: hlt\r\n  Here: hlt").value =
      .error (.duplicateLabel "HERE" ⟨13, 4⟩ ⟨0, 4⟩) := by
    decide +kernel
  exact ⟨hrefused, (stretches_of_refusal hrefused).1⟩

end StackRisc
