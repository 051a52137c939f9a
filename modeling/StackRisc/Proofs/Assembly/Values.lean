import StackRisc.Proofs.Assembly.SecondPass

/-!
# StackRisc.Proofs.Assembly.Values

The variables whose values an assembly keeps.  While an operand is followed,
the variables that it goes through are remembered: by the first pass if the
operand is settled there, by the second if it was left pending.  So in the end
every variable that stands between an operand and its number is remembered,
and has the value that was substituted.

* `Draft.Notes` — the operand is pending, or its variables are remembered;
* `Draft.notes_of_ingestAll` — after the first pass that is so for every operand;
* `Draft.remembers_of_emit` — after the second pass nothing is pending any more;
* `Draft.Reflects.mem_referenced_iff` — the variables that are remembered in
  the end are those that operands lead to, and no others;
* `exists_valuesOf_of_assemble` — the values of an assembly are theirs.
-/

namespace StackRisc

/-! ## Variables on the way -/

namespace Bindings

variable {b : Bindings} {l m : Literal} {s t : List String} {name : String} {v : Int}

/-- A variable that a chain comes to is one that the whole chain goes through. -/
theorem Leads.mem_of_reference (h : b.Leads l s (.reference name)) (h' : b.Leads l t m)
    (hm : b.IsLast m) (hdefined : (b.definition? name).isSome) : name ∈ t := by
  generalize hlast : Literal.reference name = last at h
  induction h generalizing t with
  | refl l =>
      cases h' with
      | refl =>
          rw [← hlast] at hm
          rw [show b.definition? name = none from hm] at hdefined
          contradiction
      | step =>
          cases hlast
          exact List.mem_cons_self
  | step hv _ ih =>
      cases h' with
      | refl =>
          rw [show b.definition? _ = none from hm] at hv
          contradiction
      | step hv' hrest' =>
          rw [hv, Option.some.injEq] at hv'
          exact List.mem_cons_of_mem _ (ih (hv' ▸ hrest') hlast)

/-- A chain leads to every variable that it goes through. -/
theorem Leads.exists_to_mem (h : b.Leads l t m) (hn : name ∈ t) :
    ∃ s, b.Leads l s (.reference name) := by
  induction h with
  | refl l => contradiction
  | @step other value last through hv _ ih =>
      rcases List.mem_cons.mp hn with rfl | hn
      · exact ⟨[], .refl _⟩
      · obtain ⟨s, hs⟩ := ih hn
        exact ⟨other :: s, .step hv hs⟩

end Bindings

namespace SourceProgram

/-- The operand of an emission leads to a variable, directly or through
others. -/
def LeadsTo (p : SourceProgram) (e : Emission) (name : String) : Prop :=
  ∃ operand ∈ e.operand, ∃ through,
    p.bindings.Leads operand.literal through (.reference name) ∧ (p.definition? name).isSome

/-- Some operand of the program leads to a variable. -/
def Meets (p : SourceProgram) (name : String) : Prop := ∃ e ∈ p.emissions, p.LeadsTo e name

variable {p : SourceProgram} {e : Emission} {name : String}

/-- An operand leads to every name that its chain goes through. -/
theorem leadsTo_of_mem {operand : Operand} {through : List String} {last : Literal}
    (hoperand : operand ∈ e.operand) (h : p.bindings.Leads operand.literal through last)
    (hn : name ∈ through) : p.LeadsTo e name := by
  obtain ⟨s, hs⟩ := h.exists_to_mem hn
  exact ⟨operand, hoperand, s, hs, h.isSome_of_mem hn⟩

/-- What an operand goes through while labels are not in sight, it goes
through in the end. -/
theorem Visits.leadsTo (h : p.Visits e name) : p.LeadsTo e name := by
  obtain ⟨operand, t, m, hoperand, hleads, hn⟩ := h
  exact leadsTo_of_mem hoperand (hleads.mono p.extends_early) hn

end SourceProgram

/-- The variables that an operand goes through to its number are in a list. -/
def Bindings.Through (b : Bindings) (l : Literal) (names : List String) : Prop :=
  ∃ through last v, b.Leads l through last ∧ b.Says last v ∧ ∀ name ∈ through, name ∈ names

namespace Bindings.Through

variable {b b' : Bindings} {l : Literal} {names names' : List String} {name : String}

theorem subset (h : b.Through l names) (hsub : names ⊆ names') : b.Through l names' := by
  obtain ⟨t, m, v, hleads, hsays, hmem⟩ := h
  exact ⟨t, m, v, hleads, hsays, fun n hn => hsub (hmem n hn)⟩

/-- A number that needs no label is reached in the same way whatever names are
added. -/
theorem of_early {p : SourceProgram} (he : b.Extends p.early) (h : p.early.Through l names) :
    b.Through l names := by
  obtain ⟨t, m, v, hleads, hsays, hmem⟩ := h
  refine ⟨t, m, v, hleads.mono he, ?_, hmem⟩
  cases m with
  | hex n => exact hsays
  | decimal n => exact hsays
  | reference name =>
      obtain ⟨-, n, hn, -⟩ := hsays
      contradiction

/-- A variable that an operand leads to is among them. -/
theorem mem (h : b.Through l names) {s : List String} (hleads : b.Leads l s (.reference name))
    (hdefined : (b.definition? name).isSome) : name ∈ names := by
  obtain ⟨t, m, v, hthrough, hsays, hmem⟩ := h
  exact hmem name (hleads.mem_of_reference hthrough hsays.isLast hdefined)

end Bindings.Through

namespace Draft

variable {d d' d'' : Draft} {p : SourceProgram} {e : Emission} {operand : Operand}

/-! ## First pass -/

/-- The operand was left pending, or was settled and its variables are
remembered. -/
def Notes (d : Draft) (p : SourceProgram) (operand : Operand) : Prop :=
  (∃ q ∈ d.placed.toList, q.operand = some (.pending operand)) ∨
    p.early.Through operand.literal d.referenced

/-- Nothing that was placed or remembered is lost. -/
structure Grows (d d' : Draft) : Prop where
  placed : d.placed.toList ⊆ d'.placed.toList
  referenced : d.referenced ⊆ d'.referenced

theorem Grows.refl (d : Draft) : d.Grows d := ⟨fun _ h => h, fun _ h => h⟩

/-- What is not lost in either of two steps is not lost. -/
theorem Grows.trans (h : d.Grows d') (h' : d'.Grows d'') : d.Grows d'' :=
  ⟨List.Subset.trans h.placed h'.placed, List.Subset.trans h.referenced h'.referenced⟩

/-- Defining a label loses nothing that was placed or remembered. -/
theorem grows_withLabel (d : Draft) (label : Option (String × Span)) :
    d.Grows (d.withLabel label) := by
  constructor <;> simp

/-- What is noted stays noted while the draft and the program grow. -/
theorem Notes.mono (h : d.Notes p operand) (hgrows : d.Grows d') (q : SourceProgram) :
    d'.Notes (p ++ q) operand := by
  rcases h with ⟨placed, hmem, hpending⟩ | hthrough
  · exact .inl ⟨placed, hgrows.placed hmem, hpending⟩
  · have he : SourceProgram.early (p ++ q) |>.Extends p.early := SourceProgram.extends_append p q
    exact .inr ((hthrough.of_early he).subset hgrows.referenced)

/-- All operands of emissions are noted. -/
def NotesAll (d : Draft) (p : SourceProgram) (es : List Emission) : Prop :=
  ∀ e ∈ es, ∀ operand ∈ e.operand, d.Notes p operand

theorem NotesAll.mono {es : List Emission} (h : d.NotesAll p es) (hgrows : d.Grows d')
    (q : SourceProgram) : d'.NotesAll (p ++ q) es :=
  fun e he operand hoperand => (h e he operand hoperand).mono hgrows q

theorem NotesAll.grow {es : List Emission} (h : d.NotesAll p es) (hgrows : d.Grows d') :
    d'.NotesAll p es := by
  have hmono := h.mono hgrows []
  rwa [List.append_nil] at hmono

/-- What was noted for two lists of emissions was noted for both. -/
theorem NotesAll.append {es es' : List Emission} (h : d.NotesAll p es) (h' : d.NotesAll p es') :
    d.NotesAll p (es ++ es') := by
  intro e he
  rcases List.mem_append.mp he with he | he
  · exact h e he
  · exact h' e he

/-- What becomes of an operand: it is left pending, or the variables that it
went through lead to its number. -/
theorem through_of_slot {definitions : NameTable VariableDefinition}
    (hd : Defines definitions p) {slot : Option Slot} {through : List String}
    (h : e.slot definitions = .ok (slot, through)) (hoperand : operand ∈ e.operand) :
    slot = some (.pending operand) ∨ p.early.Through operand.literal through := by
  obtain ⟨op, _⟩ := e
  cases hoperand
  simp only [Emission.slot, Except.bind_eq_ok_iff] at h
  obtain ⟨⟨value, t⟩, hr, h⟩ := h
  cases value with
  | none =>
      cases h
      exact .inl rfl
  | some w =>
      simp only [Except.bind_eq_ok_iff, Except.pure_eq_ok_iff, Prod.mk.injEq] at h
      obtain ⟨-, -, -, rfl⟩ := h
      obtain ⟨m, v, hm, hsays, -, -, -⟩ := Scope.resolve_eq_some_iff.mp hr
      rw [bindings_eq_early hd] at hm hsays
      exact .inr ⟨t, m, v, hm, hsays, fun _ hn => hn⟩

/-- Placing an emission notes the variables that its operand leads to. -/
theorem notes_of_place (hd : Defines d.definitions p) (h : d.place e = .ok d') :
    d.Grows d' ∧ d'.NotesAll p [e] := by
  rw [place_eq] at h
  obtain ⟨⟨slot, through⟩, hs, rfl⟩ := Except.map_eq_ok_iff.mp h
  refine ⟨⟨?_, fun name hn => mem_remember.mpr (.inl hn)⟩, ?_⟩
  · simp [append, remember]
  · intro x hx operand hoperand
    obtain rfl := List.mem_singleton.mp hx
    rcases through_of_slot hd hs hoperand with rfl | hthrough
    · exact .inl ⟨⟨x.opcode, _⟩, by simp [append], rfl⟩
    · exact .inr (hthrough.subset fun name hn => mem_remember.mpr (.inr hn))

/-- So does placing all emissions of a line. -/
theorem notes_of_placeAll (hd : Defines d.definitions p) {es : List Emission}
    (h : d.placeAll es = .ok d') : d.Grows d' ∧ d'.NotesAll p es := by
  induction es generalizing d with
  | nil =>
      cases h
      exact ⟨.refl _, fun _ he => absurd he List.not_mem_nil⟩
  | cons e es ih =>
      obtain ⟨d₁, h₁, h⟩ := Except.bind_eq_ok_iff.mp h
      obtain ⟨hgrows₁, hnotes₁⟩ := notes_of_place hd h₁
      have hd₁ : Defines d₁.definitions p := (place_places hd h₁).definitions ▸ hd
      obtain ⟨hgrows, hnotes⟩ := ih hd₁ h
      exact ⟨hgrows₁.trans hgrows, (hnotes₁.grow hgrows).append hnotes⟩

/-- An instruction that is taken in notes the variables of all that it expands
to. -/
theorem notes_of_ingestInstruction {line : SourceLine} {mark : Option Lexeme}
    {mnemonic : Lexeme} {arguments : List Lexeme} (hd : Defines d.definitions p)
    (h : d.ingestInstruction line mark mnemonic arguments = .ok d') :
    d.Grows d' ∧
      ∃ es, Expansion.expand line mnemonic arguments = .ok es ∧ d'.NotesAll p es := by
  obtain ⟨-, es, hes, d₁, h₁, -, h₂⟩ := ingestInstruction_eq_ok_iff.mp h
  obtain ⟨hgrows₁, hnotes₁⟩ := notes_of_placeAll (d := d.closeLabel) hd h₁
  have hdefinitions : (d₁.withLabel (d.labelOf line mark)).definitions = d.definitions := by
    rw [withLabel_definitions, (placeAll_places (d := d.closeLabel) hd h₁).definitions]
    rfl
  obtain ⟨hgrows₂, hnotes₂⟩ := notes_of_placeAll (by rw [hdefinitions]; exact hd) h₂
  have hlabel := (d₁.grows_withLabel (d.labelOf line mark)).trans hgrows₂
  have hclose : d.Grows d.closeLabel := ⟨fun _ h => h, fun _ h => h⟩
  refine ⟨hclose.trans (hgrows₁.trans hlabel), es, hes, ?_⟩
  have hboth := (hnotes₁.grow hlabel).append hnotes₂
  rwa [dropLast_append_getLast?] at hboth

/-- A line loses nothing, and notes the operands of its entry. -/
theorem notes_of_ingest {line : SourceLine} {next : Logged Draft} {entry : SourceEntry}
    (hd : Defines d.definitions p) (h : d.ingest line = .ok next)
    (hentry : SourceEntry.ofLine? line = some entry) :
    d.Grows next.value ∧ next.value.NotesAll p entry.emissions := by
  obtain ⟨statement, hread, hentry⟩ := Option.bind_eq_some_iff.mp hentry
  unfold Draft.ingest at h
  rw [hread] at h
  cases statement with
  | label name =>
      cases hentry
      obtain ⟨⟨⟩, -, hnext⟩ := Except.bind_eq_ok_iff.mp h
      cases hnext
      exact ⟨⟨fun _ h => h, fun _ h => h⟩, fun _ he => absurd he List.not_mem_nil⟩
  | definition name value =>
      obtain ⟨literal, -, rfl⟩ := Option.map_eq_some_iff.mp hentry
      obtain ⟨-, literal', -, rfl⟩ := ingestVariable_eq_ok_iff.mp h
      have hlabel := d.closeLabel.grows_withLabel d.openLabel
      refine ⟨?_, fun _ he => absurd he List.not_mem_nil⟩
      split
      · exact ⟨hlabel.placed, hlabel.referenced⟩
      · exact ⟨hlabel.placed, hlabel.referenced⟩
  | instruction mark mnemonic arguments =>
      obtain ⟨d₁, h₁, hnext⟩ := Except.bind_eq_ok_iff.mp h
      cases hnext
      obtain ⟨hgrows, es, hes, hnotes⟩ := notes_of_ingestInstruction hd h₁
      rw [SourceEntry.ofStatement?, hes] at hentry
      cases hentry
      exact ⟨hgrows, hnotes⟩

/-- After all lines every operand is noted. -/
theorem notes_of_ingestAll {lines : List SourceLine} (hr : d.Reflects p)
    (hnotes : d.NotesAll p p.emissions) (h : (d.ingestAll lines).value = .ok d')
    {q : SourceProgram} (hq : SourceProgram.ofLines? lines = some q) :
    d'.NotesAll (p ++ q) (SourceProgram.emissions (p ++ q)) := by
  induction lines generalizing d p q with
  | nil =>
      cases h
      cases hq
      rwa [List.append_nil]
  | cons line lines ih =>
      obtain ⟨entry, hentry, hq⟩ := Option.bind_eq_some_iff.mp hq
      obtain ⟨q, hq', rfl⟩ := Option.map_eq_some_iff.mp hq
      rw [value_ingestAll_cons] at h
      obtain ⟨next, hnext, h⟩ := Except.bind_eq_ok_iff.mp h
      obtain ⟨entry', hentry', hr'⟩ := hr.ingest hnext
      obtain rfl := Option.some.inj (hentry.symm.trans hentry')
      obtain ⟨hgrows, hnew⟩ := notes_of_ingest hr.defines hnext hentry
      have hall : next.value.NotesAll (p ++ [entry]) (SourceProgram.emissions (p ++ [entry])) := by
        rw [SourceProgram.emissions_append, SourceProgram.emissions_singleton]
        exact (hnotes.mono hgrows [entry]).append (hnew.mono (.refl _) [entry])
      have hfinal := ih hr' hall h hq'
      rwa [List.append_assoc] at hfinal

/-! ## Second pass -/

/-- The second pass adds no names. -/
theorem scope_of_emit {qs : List Placed} {bytes : List Byte} (h : d.emit qs = .ok (bytes, d')) :
    d'.scope = d.scope := by
  induction qs generalizing d bytes with
  | nil =>
      cases h
      rfl
  | cons q qs ih =>
      obtain ⟨⟨w, t⟩, -, h⟩ := Except.bind_eq_ok_iff.mp h
      obtain ⟨⟨rest, d₁⟩, hemit, h⟩ := Except.bind_eq_ok_iff.mp h
      cases h
      exact ih (d := d.remember t) hemit

/-- The second pass forgets no variable, and remembers those of pending
operands. -/
theorem remembers_of_emit (hb : d.scope.bindings = p.bindings) {qs : List Placed}
    {bytes : List Byte} (h : d.emit qs = .ok (bytes, d')) :
    d.referenced ⊆ d'.referenced ∧
      ∀ q ∈ qs, ∀ operand, q.operand = some (.pending operand) →
        p.bindings.Through operand.literal d'.referenced := by
  induction qs generalizing d bytes with
  | nil =>
      cases h
      exact ⟨fun _ hn => hn, fun _ hq => absurd hq List.not_mem_nil⟩
  | cons q qs ih =>
      obtain ⟨⟨w, t⟩, hsettle, h⟩ := Except.bind_eq_ok_iff.mp h
      obtain ⟨⟨rest, d₁⟩, hemit, h⟩ := Except.bind_eq_ok_iff.mp h
      cases h
      obtain ⟨hsub, hpending⟩ := ih (d := d.remember t) hb hemit
      refine ⟨fun name hn => hsub (mem_remember.mpr (.inl hn)), fun x hx operand hx' => ?_⟩
      rcases List.mem_cons.mp hx with rfl | hx
      · rw [settle, hx'] at hsettle
        obtain ⟨⟨value, through⟩, hr, hsettle⟩ := Except.bind_eq_ok_iff.mp hsettle
        obtain ⟨⟨⟩, -, hsettle⟩ := Except.bind_eq_ok_iff.mp hsettle
        obtain ⟨-, rfl⟩ := Prod.mk.inj (Except.ok.inj hsettle)
        cases value with
        | none =>
            obtain ⟨hnone, -⟩ := Scope.resolve_eq_none_iff.mp hr
            contradiction
        | some w =>
            obtain ⟨m, v, hm, hsays, -, -, -⟩ := Scope.resolve_eq_some_iff.mp hr
            rw [hb] at hm hsays
            exact ⟨through, m, v, hm, hsays, fun n hn => hsub (mem_remember.mpr (.inr hn))⟩
      · exact hpending x hx operand hx'

/-- The second pass only adds variables that operands lead to. -/
theorem referenced_of_emit (hb : d.scope.bindings = p.bindings) {es : List Emission}
    {qs : List Placed} {bytes : List Byte} (hh : List.Forall₂ p.Holds es qs)
    (h : d.emit qs = .ok (bytes, d')) {name : String} (hn : name ∈ d'.referenced) :
    name ∈ d.referenced ∨ ∃ e ∈ es, p.LeadsTo e name := by
  induction hh generalizing d bytes with
  | nil =>
      cases h
      exact .inl hn
  | @cons e q es qs hq _ ih =>
      obtain ⟨⟨w, t⟩, hsettle, h⟩ := Except.bind_eq_ok_iff.mp h
      obtain ⟨⟨rest, d₁⟩, hemit, h⟩ := Except.bind_eq_ok_iff.mp h
      cases h
      rcases ih (d := d.remember t) hb hemit with hn | ⟨x, hx, hleads⟩
      · rcases mem_remember.mp hn with hn | hn
        · exact .inl hn
        · refine .inr ⟨e, List.mem_cons_self, ?_⟩
          cases hq with
          | bare op | resolved =>
              cases hsettle
              contradiction
          | pending op operand =>
              obtain ⟨r, hr, hsettle⟩ := Except.bind_eq_ok_iff.mp hsettle
              obtain ⟨⟨⟩, -, hsettle⟩ := Except.bind_eq_ok_iff.mp hsettle
              cases hsettle
              obtain ⟨m, -, hm, -, -⟩ := Scope.leads_of_resolveFrom hr
              rw [hb] at hm
              exact SourceProgram.leadsTo_of_mem rfl hm hn
      · exact .inr ⟨x, List.mem_cons_of_mem e hx, hleads⟩

/-- The variables that are remembered after both passes are those that
operands lead to. -/
theorem Reflects.mem_referenced_iff (hr : d.Reflects p) (hnotes : d.NotesAll p p.emissions)
    (hfits : p.size ≤ offsetLimit) {bytes : List Byte}
    (hemit : d.emit d.placed.toList = .ok (bytes, d')) {name : String} :
    name ∈ d'.referenced ↔ p.Meets name := by
  have hb := hr.bindings_eq hfits
  constructor
  · intro hn
    rcases referenced_of_emit hb hr.placed hemit hn with hn | hmeets
    · obtain ⟨e, he, hvisits⟩ := hr.referenced name hn
      exact ⟨e, he, hvisits.leadsTo⟩
    · exact hmeets
  · rintro ⟨e, he, operand, hoperand, through, hleads, hdefined⟩
    obtain ⟨hsub, hpending⟩ := remembers_of_emit hb hemit
    have hthrough : p.bindings.Through operand.literal d'.referenced := by
      rcases hnotes e he operand hoperand with ⟨q, hq, hslot⟩ | hearly
      · exact hpending q hq operand hslot
      · exact (hearly.of_early p.extends_early).subset hsub
    exact hthrough.mem hleads hdefined

/-- Each remembered variable gets the number that it stands for. -/
theorem find?_valuesOf (hb : d.scope.bindings = p.bindings) {names : List String}
    {values : NameTable Word} (h : d.valuesOf names = .ok values) {name : String}
    (hn : name ∈ names) {v : Int} (hv : p.bindings.Denotes (.reference name) v) :
    values.find? name = some (Int32.ofInt v) := by
  induction names generalizing values with
  | nil => contradiction
  | cons first names ih =>
      obtain ⟨r, hr, h⟩ := Except.bind_eq_ok_iff.mp h
      obtain ⟨rest, hrest, h⟩ := Except.bind_eq_ok_iff.mp h
      cases h
      rw [NameTable.find?_insert]
      split
      · next heq =>
        obtain ⟨v', hv', -, -, hvalue⟩ := denotes_of_resolve hb hr
        rw [heq] at hv'
        rw [hvalue, hv'.unique hv, Option.getD_some]
      · next hne =>
        exact ih hrest ((List.mem_cons.mp hn).resolve_left (Ne.symm hne))

/-- Each variable that was given a value stands for a number in range. -/
theorem denotes_of_valuesOf (hb : d.scope.bindings = p.bindings) {names : List String}
    {values : NameTable Word} (h : d.valuesOf names = .ok values) {name : String}
    (hn : name ∈ names) :
    ∃ v, p.bindings.Denotes (.reference name) v ∧ 0 ≤ v ∧ v ≤ Word.largest := by
  induction names generalizing values with
  | nil => contradiction
  | cons first names ih =>
      obtain ⟨r, hr, h⟩ := Except.bind_eq_ok_iff.mp h
      obtain ⟨rest, hrest, -⟩ := Except.bind_eq_ok_iff.mp h
      rcases List.mem_cons.mp hn with rfl | hn
      · obtain ⟨v, hv, h0, h1, -⟩ := denotes_of_resolve hb hr
        exact ⟨v, hv, h0, h1⟩
      · exact ih hrest hn

/-- The variables asked for get a value, and no others. -/
theorem isSome_valuesOf_iff (hb : d.scope.bindings = p.bindings) {names : List String}
    {values : NameTable Word} (h : d.valuesOf names = .ok values) {name : String} :
    (values.find? name).isSome ↔ name ∈ names := by
  refine ⟨mem_of_valuesOf h, fun hn => ?_⟩
  obtain ⟨v, hv, -, -⟩ := denotes_of_valuesOf hb h hn
  rw [find?_valuesOf hb h hn hv]
  rfl

/-- The values are the numbers that the variables asked for stand for. -/
theorem find?_valuesOf_iff (hb : d.scope.bindings = p.bindings) {names : List String}
    {values : NameTable Word} (h : d.valuesOf names = .ok values) {name : String} {w : Word} :
    values.find? name = some w ↔
      name ∈ names ∧ p.bindings.Denotes (.reference name) w.toInt := by
  constructor
  · intro hfind
    have hn := mem_of_valuesOf h (by rw [hfind]; rfl)
    obtain ⟨v, hv, h0, h1⟩ := denotes_of_valuesOf hb h hn
    have hvalue := find?_valuesOf hb h hn hv
    rw [hfind, Option.some.injEq] at hvalue
    rw [hvalue, Word.toInt_ofInt h0 h1]
    exact ⟨hn, hv⟩
  · rintro ⟨hn, hv⟩
    rw [find?_valuesOf hb h hn hv, Int32.ofInt_toInt]

end Draft

/-! ## Whole sources -/

/-- The values of an assembly are those of the variables that operands of its
program lead to. -/
theorem exists_valuesOf_of_assemble {source : String} {a : Assembly} {p : SourceProgram}
    (ha : (assemble source).value = .ok a) (hp : SourceProgram.ofSource? source = some p) :
    ∃ d : Draft, d.scope.bindings = p.bindings ∧
      d.valuesOf d.referenced = .ok a.symbols.values ∧
      ∀ name, name ∈ d.referenced ↔ p.Meets name := by
  obtain ⟨d, hd, hfinish⟩ := Except.bind_eq_ok_iff.mp ha
  obtain ⟨p', hp', hr⟩ := Draft.reflects_nil.ingestAll hd
  obtain rfl : p = p' := Option.some.inj (hp.symm.trans hp')
  rw [List.nil_append] at hr
  have hnotes : d.NotesAll p p.emissions :=
    Draft.notes_of_ingestAll Draft.reflects_nil (fun _ he => absurd he List.not_mem_nil) hd hp
  obtain ⟨is, hassembles⟩ := hr.assembles hfinish
  obtain ⟨-, -, bytes, d', values, hemit, hvalues, rfl⟩ := Draft.finish_eq_ok_iff.mp hfinish
  refine ⟨d', ?_, hvalues, fun name => hr.mem_referenced_iff hnotes hassembles.fits hemit⟩
  rw [Draft.scope_of_emit hemit]
  exact hr.bindings_eq hassembles.fits

/-- A variable that an operand of a source leads to is kept in the symbols of
the assembly, with the number that it stands for. -/
theorem find?_values_of_assemble {source : String} {a : Assembly} {p : SourceProgram}
    (ha : (assemble source).value = .ok a) (hp : SourceProgram.ofSource? source = some p)
    {e : Emission} (he : e ∈ p.emissions) {operand : Operand} (hoperand : operand ∈ e.operand)
    {through : List String} {name : String}
    (hleads : p.bindings.Leads operand.literal through (.reference name))
    (hdefined : (p.definition? name).isSome) {v : Int}
    (hv : p.bindings.Denotes (.reference name) v) :
    a.symbols.values.find? name = some (Int32.ofInt v) := by
  obtain ⟨d, hb, hvalues, hreferenced⟩ := exists_valuesOf_of_assemble ha hp
  have hmeets : p.Meets name := ⟨e, he, operand, hoperand, through, hleads, hdefined⟩
  exact Draft.find?_valuesOf hb hvalues ((hreferenced name).mpr hmeets) hv

end StackRisc
