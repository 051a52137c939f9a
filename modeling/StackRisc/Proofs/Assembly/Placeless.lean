import StackRisc.Proofs.Assembly.FirstPass
import StackRisc.Proofs.Source.Layout

/-!
# StackRisc.Proofs.Assembly.Placeless

Assembly carries places along and never looks at them: it gives the same when
all places are forgotten before as when they are forgotten after it.  So two
sources with the same cleaned lines are assembled alike.

* `Scope.resolveFrom_placeless`, `Draft.placeAll_placeless` and
  `Draft.finish_placeless` — a step and forgetting places can change order;
* `Draft.ingest_congr`, `Draft.ingestAll_congr` — lines with the same text do
  the same, wherever they stand;
* `assemble_of_relayout` — the layout of a source makes no difference.
-/

namespace StackRisc

/-! ## Forgetting places -/

/-- The stretch that stands for all stretches. -/
def Span.nowhere : Span := ⟨0, 0⟩

/-- A refusal without the places that it is about. -/
def AssemblyError.placeless : AssemblyError → AssemblyError
  | malformed _ cause _ => malformed 0 cause .nowhere
  | openLabel name pending _ _ => openLabel name pending .nowhere .nowhere
  | duplicateLabel name _ _ => duplicateLabel name .nowhere .nowhere
  | danglingLabel name _ => danglingLabel name .nowhere
  | outOfRange value range _ => outOfRange value range .nowhere
  | unknownMnemonic mnemonic _ => unknownMnemonic mnemonic .nowhere
  | unresolved name _ => unresolved name .nowhere
  | circular name _ => circular name .nowhere
  | tooLarge size => tooLarge size

def VariableDefinition.placeless (v : VariableDefinition) : VariableDefinition :=
  { v with span := .nowhere }

def LabelDefinition.placeless (l : LabelDefinition) : LabelDefinition :=
  { l with span := .nowhere }

def Operand.placeless (o : Operand) : Operand := { o with span := .nowhere }

def Emission.placeless (e : Emission) : Emission :=
  { e with operand := e.operand.map Operand.placeless }

def Slot.placeless : Slot → Slot
  | resolved value => resolved value
  | pending operand => pending operand.placeless

def Placed.placeless (q : Placed) : Placed := { q with operand := q.operand.map Slot.placeless }

def Scope.placeless (s : Scope) : Scope :=
  ⟨s.definitions.map VariableDefinition.placeless,
    s.labels.map (NameTable.map LabelDefinition.placeless)⟩

/-- A label that waits, without the place of its definition. -/
def placelessLabel (l : String × Span) : String × Span := (l.1, .nowhere)

def Draft.placeless (d : Draft) : Draft :=
  { d with
    placed := d.placed.map Placed.placeless
    labels := d.labels.map LabelDefinition.placeless
    definitions := d.definitions.map VariableDefinition.placeless
    openLabel := d.openLabel.map placelessLabel }

/-! ## Operands -/

/-- A range check uses its span for the report alone. -/
theorem checkRange_placeless (value : Int) (span : Span) :
    (checkRange value span).bimap id AssemblyError.placeless = checkRange value .nowhere := by
  unfold checkRange
  split <;> rfl

namespace Scope

@[simp] theorem placeless_definitions (s : Scope) :
    s.placeless.definitions = s.definitions.map VariableDefinition.placeless := rfl

@[simp] theorem placeless_labels (s : Scope) :
    s.placeless.labels = s.labels.map (NameTable.map LabelDefinition.placeless) := rfl

/-- Where an operand and the names are written makes no difference to what it
stands for. -/
theorem resolveFrom_placeless (s : Scope) (fuel : Nat) (visited : List String) (l : Literal)
    (span : Span) :
    (s.resolveFrom fuel visited l span).bimap id AssemblyError.placeless =
      s.placeless.resolveFrom fuel visited l .nowhere := by
  have hrange (value : Int) (span : Span) :
      (checkRange value span >>= fun w => pure (⟨some w, []⟩ : Resolution)).bimap id
          AssemblyError.placeless =
        (checkRange value .nowhere >>= fun w => pure ⟨some w, []⟩) := by
    rw [← checkRange_placeless value span]
    exact Except.bimap_bind fun _ => rfl
  fun_induction resolveFrom s fuel visited l span with
  | case1 fuel visited value span =>
      rw [resolveFrom]
      exact hrange value span
  | case2 fuel visited value span =>
      rw [resolveFrom]
      exact hrange value span
  | case3 fuel visited name span definition hfind hvisited =>
      simp only [resolveFrom, placeless_definitions, NameTable.find?_map, hfind, Option.map_some,
        if_pos hvisited]
      rfl
  | case4 visited name span definition hfind hvisited =>
      simp only [resolveFrom, placeless_definitions, NameTable.find?_map, hfind, Option.map_some,
        if_neg hvisited]
      rfl
  | case5 visited name span definition hfind hvisited fuel ih =>
      simp only [resolveFrom, placeless_definitions, NameTable.find?_map, hfind, Option.map_some,
        if_neg hvisited]
      show _ = s.placeless.resolveFrom fuel (name :: visited) definition.literal .nowhere >>= _
      rw [← ih]
      exact Except.bimap_bind fun _ => rfl
  | case6 fuel visited name span hfind hlabels =>
      simp only [resolveFrom, placeless_definitions, NameTable.find?_map, hfind, Option.map_none,
        placeless_labels, hlabels]
      rfl
  | case7 fuel visited name span hfind labels hlabels label hlabel =>
      simp only [resolveFrom, placeless_definitions, NameTable.find?_map, hfind, Option.map_none,
        placeless_labels, hlabels, Option.map_some, hlabel]
      exact hrange _ span
  | case8 fuel visited name span hfind labels hlabels hlabel =>
      simp only [resolveFrom, placeless_definitions, NameTable.find?_map, hfind, Option.map_none,
        placeless_labels, hlabels, Option.map_some, hlabel]
      rfl

/-- What an operand resolves to does not depend on where it stands. -/
theorem resolve_placeless (s : Scope) (l : Literal) (span : Span) :
    (s.resolve l span).bimap id AssemblyError.placeless = s.placeless.resolve l .nowhere := by
  rw [resolve, resolve, resolveFrom_placeless, placeless_definitions, NameTable.size_map]

end Scope

theorem Draft.checkTarget_placeless (op : Opcode) (value : Word) (span : Span) :
    (checkTarget op value span).bimap id AssemblyError.placeless =
      checkTarget op value .nowhere := by
  unfold checkTarget
  split <;> rfl

/-! ## First pass -/

theorem Emission.slot_placeless (definitions : NameTable VariableDefinition) (e : Emission) :
    (e.slot definitions).bimap (fun s => (s.1.map Slot.placeless, s.2)) AssemblyError.placeless =
      e.placeless.slot (definitions.map VariableDefinition.placeless) := by
  obtain ⟨op, _ | operand⟩ := e
  · rfl
  · show _ = (Scope.placeless ⟨definitions, none⟩).resolve operand.literal .nowhere >>= _
    rw [← Scope.resolve_placeless _ _ operand.span]
    refine Except.bimap_bind fun r => ?_
    obtain ⟨_ | value, through⟩ := r
    · rfl
    · show _ = Draft.checkTarget op value .nowhere >>= _
      rw [← Draft.checkTarget_placeless op value operand.span]
      exact Except.bimap_bind fun _ => rfl

namespace Draft

theorem append_placeless (d : Draft) (op : Opcode) (slot : Option Slot) (through : List String) :
    ((d.remember through).append op slot).placeless =
      (d.placeless.remember through).append op (slot.map Slot.placeless) := by
  simp only [placeless, append, remember, Array.map_push, Placed.placeless]

theorem place_placeless (d : Draft) (e : Emission) :
    (d.place e).bimap placeless AssemblyError.placeless = d.placeless.place e.placeless := by
  rw [place_eq, place_eq]
  show _ = (e.placeless.slot (d.definitions.map VariableDefinition.placeless)).map _
  rw [← Emission.slot_placeless]
  cases e.slot d.definitions with
  | error err => rfl
  | ok s => exact congrArg Except.ok (d.append_placeless e.opcode s.1 s.2)

theorem placeAll_placeless (d : Draft) (es : List Emission) :
    (d.placeAll es).bimap placeless AssemblyError.placeless =
      d.placeless.placeAll (es.map Emission.placeless) := by
  induction es generalizing d with
  | nil => rfl
  | cons e es ih =>
      rw [List.map_cons, placeAll, placeAll, ← place_placeless]
      exact Except.bimap_bind fun d => ih d

theorem checkNoOpenLabel_placeless (d : Draft) (name : String) (span : Span) :
    (d.checkNoOpenLabel name span).bimap id AssemblyError.placeless =
      d.placeless.checkNoOpenLabel name .nowhere := by
  unfold checkNoOpenLabel placeless
  cases d.openLabel <;> rfl

theorem defineLabel?_placeless (d : Draft) (label : Option (String × Span)) :
    (d.defineLabel? label).bimap placeless AssemblyError.placeless =
      d.placeless.defineLabel? (label.map placelessLabel) := by
  cases label with
  | none => rfl
  | some l =>
      show (d.defineLabel l.1 l.2).bimap placeless AssemblyError.placeless =
        d.placeless.defineLabel l.1 .nowhere
      simp only [defineLabel, placeless, NameTable.find?_map]
      cases d.labels.find? l.1 with
      | some first => rfl
      | none => simp only [Option.map_none, Except.bimap, placeless, NameTable.map_insert]; rfl

theorem defineVariable_placeless (d : Draft) (name : String) (definition : VariableDefinition) :
    (d.defineVariable name definition).placeless =
      d.placeless.defineVariable name definition.placeless := by
  simp only [defineVariable, placeless, NameTable.map_insert]

theorem layOut_placeless (d : Draft) (label : Option (String × Span)) (es : List Emission) :
    (d.layOut label es).bimap placeless AssemblyError.placeless =
      d.placeless.layOut (label.map placelessLabel) (es.map Emission.placeless) := by
  rw [layOut, layOut, ← List.map_dropLast, List.getLast?_map, Option.toList_map,
    ← placeAll_placeless]
  refine Except.bimap_bind fun d₁ => ?_
  rw [← defineLabel?_placeless]
  exact Except.bimap_bind fun d₂ => d₂.placeAll_placeless es.getLast?.toList

end Draft

/-! ## Lines with the same text -/

namespace Expansion

variable (line line' : SourceLine)

theorem operand_congr (token : Lexeme) :
    (operand line token).bimap Operand.placeless AssemblyError.placeless =
      (operand line' token).bimap Operand.placeless AssemblyError.placeless := by
  unfold operand
  split <;> rfl

/-- A mnemonic and its arguments stand for the same wherever they are
written. -/
theorem expand_congr (mnemonic : Lexeme) (arguments : List Lexeme) :
    (expand line mnemonic arguments).bimap (List.map Emission.placeless)
        AssemblyError.placeless =
      (expand line' mnemonic arguments).bimap (List.map Emission.placeless)
        AssemblyError.placeless := by
  have hoperand := operand_congr line line'
  have hstore {a a' v v' : Operand} (ha : a.placeless = a'.placeless)
      (hv : v.placeless = v'.placeless) :
      (storeImmediate a v).map Emission.placeless =
        (storeImmediate a' v').map Emission.placeless := by
    show storeImmediate a.placeless v.placeless = storeImmediate a'.placeless v'.placeless
    rw [ha, hv]
  unfold expand
  split
  · split
    · exact Except.bimap_bind_congr (hoperand _) fun v v' hv => congrArg Except.ok (hstore rfl hv)
    · rfl
  · split
    · rfl
    · split
      · rfl
      · refine Except.bimap_bind_congr (hoperand _) fun a a' ha => ?_
        exact Except.bimap_bind_congr (hoperand _) fun v v' hv => congrArg Except.ok (hstore ha hv)
      · rfl
    · next op _ _ =>
      split
      · split
        · exact Except.bimap_bind_congr (hoperand _) fun v v' (hv : v.placeless = v'.placeless) =>
            congrArg (fun o => Except.ok [(⟨op, some o⟩ : Emission)]) hv
        · rfl
      · split <;> rfl

end Expansion

namespace Draft

variable {d d' : Draft} {line line' : SourceLine}

theorem takeLabel_congr (hd : d.placeless = d'.placeless) (mark : Option Lexeme) :
    (d.takeLabel line mark).bimap (fun s => (s.1.map placelessLabel, s.2.placeless))
        AssemblyError.placeless =
      (d'.takeLabel line' mark).bimap (fun s => (s.1.map placelessLabel, s.2.placeless))
        AssemblyError.placeless := by
  cases mark with
  | none => exact congrArg (fun d : Draft => Except.ok (d.openLabel, d.closeLabel)) hd
  | some name =>
      refine Except.bimap_bind_congr (f := id) ?_ fun _ _ _ =>
        congrArg (fun d => Except.ok (some (name.text, Span.nowhere), d)) hd
      rw [checkNoOpenLabel_placeless, checkNoOpenLabel_placeless, hd]

/-- An instruction is taken in as well from any line with the same words. -/
theorem ingestInstruction_congr (hd : d.placeless = d'.placeless) (mark : Option Lexeme)
    (mnemonic : Lexeme) (arguments : List Lexeme) :
    (d.ingestInstruction line mark mnemonic arguments).bimap placeless AssemblyError.placeless =
      (d'.ingestInstruction line' mark mnemonic arguments).bimap placeless
        AssemblyError.placeless := by
  rw [ingestInstruction_eq, ingestInstruction_eq]
  refine Except.bimap_bind_congr (takeLabel_congr hd mark) fun s s' hs => ?_
  obtain ⟨hlabel, hdraft⟩ := Prod.mk.inj hs
  refine Except.bimap_bind_congr (Expansion.expand_congr line line' mnemonic arguments)
    fun es es' hes => ?_
  rw [layOut_placeless, layOut_placeless, hlabel, hdraft, hes]

/-- A definition is taken in as well from any line with the same words. -/
theorem ingestVariable_congr (hd : d.placeless = d'.placeless) (name value : Lexeme) :
    (d.ingestVariable line name value).bimap (·.value.placeless) AssemblyError.placeless =
      (d'.ingestVariable line' name value).bimap (·.value.placeless) AssemblyError.placeless := by
  have hlabel : (d.closeLabel.defineLabel? d.openLabel).bimap placeless AssemblyError.placeless =
      (d'.closeLabel.defineLabel? d'.openLabel).bimap placeless AssemblyError.placeless := by
    rw [defineLabel?_placeless, defineLabel?_placeless]
    exact congrArg (fun d : Draft => d.closeLabel.defineLabel? d.openLabel) hd
  refine Except.bimap_bind_congr hlabel fun d₁ d₁' hd₁ => ?_
  split
  · rfl
  · next literal _ =>
    have hcontains (d : Draft) :
        d.definitions.contains name.text = d.placeless.definitions.contains name.text :=
      (NameTable.contains_map VariableDefinition.placeless d.definitions name.text).symm
    rw [hcontains d₁, hd₁, ← hcontains d₁']
    split
    · exact congrArg Except.ok hd₁
    · refine congrArg Except.ok ?_
      show (d₁.defineVariable name.text _).placeless = (d₁'.defineVariable name.text _).placeless
      rw [defineVariable_placeless, defineVariable_placeless, hd₁]
      rfl

/-- Lines with the same text do the same, wherever they stand. -/
theorem ingest_congr (hd : d.placeless = d'.placeless) (htext : line.text = line'.text) :
    (d.ingest line).bimap (·.value.placeless) AssemblyError.placeless =
      (d'.ingest line').bimap (·.value.placeless) AssemblyError.placeless := by
  unfold ingest
  rw [htext]
  split
  · rfl
  · next name _ =>
    refine Except.bimap_bind_congr (f := id) ?_ fun _ _ _ => ?_
    · rw [checkNoOpenLabel_placeless, checkNoOpenLabel_placeless, hd]
    · exact congrArg (fun d : Draft =>
        Except.ok { d with openLabel := some (name.text, Span.nowhere) }) hd
  · next name value _ => exact ingestVariable_congr hd name value
  · next mark mnemonic arguments _ =>
    exact Except.bimap_bind_congr (ingestInstruction_congr hd mark mnemonic arguments)
      fun d₁ d₁' hd₁ => congrArg Except.ok hd₁

/-- So do all lines. -/
theorem ingestAll_congr {lines lines' : List SourceLine} (hd : d.placeless = d'.placeless)
    (htexts : lines.map (·.text) = lines'.map (·.text)) :
    (d.ingestAll lines).value.bimap placeless AssemblyError.placeless =
      (d'.ingestAll lines').value.bimap placeless AssemblyError.placeless := by
  induction lines generalizing d d' lines' with
  | nil =>
      obtain rfl := List.map_eq_nil_iff.mp htexts.symm
      exact congrArg Except.ok hd
  | cons line lines ih =>
      cases lines' with
      | nil => contradiction
      | cons line' lines' =>
          obtain ⟨htext, htexts⟩ := List.cons.inj htexts
          rw [value_ingestAll_cons, value_ingestAll_cons]
          exact Except.bimap_bind_congr (ingest_congr hd htext) fun next next' hnext =>
            ih hnext htexts

/-! ## Second pass -/

/-- The second pass settles an operand wherever it stands. -/
theorem settle_placeless (d : Draft) (q : Placed) :
    (d.settle q).bimap id AssemblyError.placeless = d.placeless.settle q.placeless := by
  obtain ⟨op, _ | value | operand⟩ := q
  · rfl
  · rfl
  · show _ = d.scope.placeless.resolve operand.literal .nowhere >>= _
    rw [← Scope.resolve_placeless _ _ operand.span]
    refine Except.bimap_bind fun r => ?_
    show _ = checkTarget op (r.value.getD 0) .nowhere >>= _
    rw [← checkTarget_placeless op _ operand.span]
    exact Except.bimap_bind fun _ => rfl

/-- The second pass makes the same bytes of the same words. -/
theorem emit_placeless (d : Draft) (qs : List Placed) :
    (d.emit qs).bimap (fun r => (r.1, r.2.placeless)) AssemblyError.placeless =
      d.placeless.emit (qs.map Placed.placeless) := by
  induction qs generalizing d with
  | nil => rfl
  | cons q qs ih =>
      rw [List.map_cons, emit, emit, ← settle_placeless]
      refine Except.bimap_bind fun r => ?_
      show _ = (d.remember r.2).placeless.emit (qs.map Placed.placeless) >>= _
      rw [← ih]
      exact Except.bimap_bind fun _ => rfl

/-- The values for the symbols do not depend on places. -/
theorem valuesOf_placeless (d : Draft) (names : List String) :
    (d.valuesOf names).bimap id AssemblyError.placeless = d.placeless.valuesOf names := by
  induction names with
  | nil => rfl
  | cons name names ih =>
      rw [valuesOf, valuesOf, ← ih]
      show _ = d.scope.placeless.resolve (.reference name) .nowhere >>= _
      rw [← Scope.resolve_placeless _ _ ⟨0, 0⟩]
      exact Except.bimap_bind fun r => Except.bimap_bind fun _ => rfl

theorem labelOffsets_placeless (d : Draft) : d.placeless.labelOffsets = d.labelOffsets := by
  rw [labelOffsets, labelOffsets, placeless, NameTable.map, List.map_map]
  rfl

/-- A draft is finished to the same assembly, or refused for the same reason,
wherever its words stood. -/
theorem finish_placeless (d : Draft) :
    d.finish.bimap id AssemblyError.placeless = d.placeless.finish := by
  have hopen : d.placeless.openLabel = d.openLabel.map placelessLabel := rfl
  have hsize : d.placeless.size = d.size := rfl
  have hplaced : d.placeless.placed.toList = d.placed.toList.map Placed.placeless :=
    Array.toList_map
  unfold finish
  rw [hopen, hsize, hplaced, ← emit_placeless]
  cases d.openLabel with
  | some label => rfl
  | none =>
      simp only [Option.map_none]
      split
      · rfl
      · refine Except.bimap_bind fun r => ?_
        show _ = r.2.placeless.valuesOf r.2.referenced >>= _
        rw [← valuesOf_placeless, labelOffsets_placeless]
        exact Except.bimap_bind fun _ => rfl

end Draft

/-! ## Whole sources -/

/-- Sources with the same cleaned lines give the same assembly, or are refused
for the same reason. -/
theorem assemble_congr {source source' : String}
    (h : (SourceLine.ofSource source).map (·.text) = (SourceLine.ofSource source').map (·.text)) :
    (assemble source).value.bimap id AssemblyError.placeless =
      (assemble source').value.bimap id AssemblyError.placeless := by
  refine Except.bimap_bind_congr (Draft.ingestAll_congr rfl h) fun d d' hd => ?_
  rw [Draft.finish_placeless, Draft.finish_placeless, hd]

/-- The layout of a source makes no difference to its assembly, nor to the
reason why it is refused. -/
theorem assemble_of_relayout {source source' : String} (h : Relayout source source') :
    (∀ a, (assemble source).value = .ok a → (assemble source').value = .ok a) ∧
      ∀ e, (assemble source).value = .error e →
        ∃ e', (assemble source').value = .error e' ∧ e'.placeless = e.placeless := by
  have hsame := assemble_congr (relayout_iff.mp h)
  refine ⟨fun a ha => ?_, fun e he => ?_⟩
  · rw [ha] at hsame
    cases h' : (assemble source').value with
    | error e' =>
        rw [h'] at hsame
        contradiction
    | ok a' =>
        rw [h'] at hsame
        exact hsame.symm
  · rw [he] at hsame
    cases h' : (assemble source').value with
    | error e' =>
        rw [h'] at hsame
        exact ⟨e', rfl, Except.error.inj hsame.symm⟩
    | ok a' =>
        rw [h'] at hsame
        contradiction

/-- A loop, and the same loop with comments, empty lines, other line ends, gaps
and case. -/
theorem assemble_of_relayout_loop :
    Relayout "loop: ldi n\nbge loop\nn = #5"
        "; count\r\n\tLOOP: Ldi N ; load\r\n\r\nBGE loop\r\n  n = #5  " ∧
      ∃ a, (assemble "loop: ldi n\nbge loop\nn = #5").value = .ok a ∧
        (assemble "; count\r\n\tLOOP: Ldi N ; load\r\n\r\nBGE loop\r\n  n = #5  ").value =
          .ok a := by
  have h : Relayout "loop: ldi n\nbge loop\nn = #5"
      "; count\r\n\tLOOP: Ldi N ; load\r\n\r\nBGE loop\r\n  n = #5  " :=
    relayout_iff.mpr (by decide +kernel)
  obtain ⟨a, ha⟩ : ∃ a, (assemble "loop: ldi n\nbge loop\nn = #5").value = .ok a :=
    Except.exists_eq_ok_of_isOk (by decide +kernel)
  exact ⟨h, a, ha, (assemble_of_relayout h).1 a ha⟩

end StackRisc
