import StackRisc.Proofs.Assembly.Meaning

/-!
# StackRisc.Proofs.Assembly.FirstPass

What the first pass has collected after some lines is what the program of
these lines says (`Draft.Reflects`): the same instructions, variables and
labels.  An operand that was resolved has the value that it keeps however the
program goes on, since a chain of variables that ends in a number only goes
through definitions that stay.

* `Draft.Reflects.ingest`, `Draft.Reflects.ingestAll` — one line and all
  lines keep this relation;
* `Draft.Reflects.ingest_ok`, `Draft.Reflects.ingestAll_ok` — a line is
  refused only for a reason that the whole program shows.
-/

namespace StackRisc

/-! ## Operands in range -/

/-- Only the target of a branch is checked, against the size of an image. -/
theorem Draft.checkTarget_eq_ok_iff {op : Opcode} {v : Int} {span : Span} (h0 : 0 ≤ v)
    (h1 : v ≤ Word.largest) :
    Draft.checkTarget op (Int32.ofInt v) span = .ok () ↔ (op = .bge → v < offsetLimit) := by
  rw [Draft.checkTarget, Word.toInt_ofInt h0 h1]
  split
  · next h =>
    simp only [reduceCtorEq, false_iff]
    intro hlt
    have := hlt h.1
    omega
  · next h =>
    simp only [true_iff]
    intro hop
    by_contra hge
    exact h ⟨hop, by omega⟩

/-! ## Names so far -/

/-- A table holds the variables of a program. -/
def Defines (definitions : NameTable VariableDefinition) (p : SourceProgram) : Prop :=
  ∀ name, (definitions.find? name).map (·.literal) = p.definition? name

namespace SourceProgram

/-- The names of a program while its labels are not in sight. -/
def early (p : SourceProgram) : Bindings := ⟨p.definition?, fun _ => none⟩

/-- Resolving the operand of an emission goes through a variable. -/
def Visits (p : SourceProgram) (e : Emission) (name : String) : Prop :=
  ∃ operand through last, e.operand = some operand ∧
    p.early.Leads operand.literal through last ∧ name ∈ through

/-- What the first pass makes of an emission. -/
inductive Holds (p : SourceProgram) : Emission → Placed → Prop where
  | bare (op : Opcode) : Holds p ⟨op, none⟩ ⟨op, none⟩
  | pending (op : Opcode) (operand : Operand) :
      Holds p ⟨op, some operand⟩ ⟨op, some (.pending operand)⟩
  | resolved {op : Opcode} {operand : Operand} {v : Int} :
      p.early.Denotes operand.literal v → 0 ≤ v → v ≤ Word.largest →
        (op = .bge → v < offsetLimit) →
          Holds p ⟨op, some operand⟩ ⟨op, some (.resolved (Int32.ofInt v))⟩

variable {p : SourceProgram}

/-- More entries only add variables. -/
theorem extends_append (p q : SourceProgram) : (bindings (p ++ q)).Extends p.early := by
  intro name value h
  have hv : p.definition? name = some value := h
  show definition? (p ++ q) name = some value
  rw [definition?_append, hv, Option.some_or]

/-- A number that needs no label stays whatever names are added. -/
theorem denotes_of_early {b : Bindings} {l : Literal} {v : Int} (he : b.Extends p.early)
    (h : p.early.Denotes l v) : b.Denotes l v := by
  obtain ⟨t, m, hm, hsays⟩ := h
  refine ⟨t, m, hm.mono he, ?_⟩
  cases m with
  | hex n => exact hsays
  | decimal n => exact hsays
  | reference name =>
      obtain ⟨-, n, hn, -⟩ := hsays
      contradiction

/-- What an emission holds early is not changed by later lines. -/
theorem Holds.append {e : Emission} {placed : Placed} (h : p.Holds e placed)
    (q : SourceProgram) : Holds (p ++ q) e placed := by
  cases h with
  | bare op => exact .bare op
  | pending op operand => exact .pending op operand
  | resolved hd h0 h1 ht => exact .resolved (denotes_of_early (extends_append p q) hd) h0 h1 ht

/-- An operand that was resolved early goes through the same names when later
lines are known. -/
theorem Visits.append {e : Emission} {name : String} (h : p.Visits e name)
    (q : SourceProgram) : Visits (p ++ q) e name := by
  obtain ⟨operand, t, m, he, hm, hn⟩ := h
  exact ⟨operand, t, m, he, hm.mono (extends_append p q), hn⟩

end SourceProgram

/-! ## One emission -/

/-- While labels are not in sight, the names are the variables. -/
theorem bindings_eq_early {definitions : NameTable VariableDefinition} {p : SourceProgram}
    (h : Defines definitions p) : Scope.bindings ⟨definitions, none⟩ = p.early := by
  rw [Scope.bindings, SourceProgram.early, ← funext h]
  rfl

/-- The operand of an emission after the first pass, and the variables that
it went through. -/
def Emission.slot (definitions : NameTable VariableDefinition) (e : Emission) :
    Except AssemblyError (Option Slot × List String) :=
  match e.operand with
  | none => .ok (none, [])
  | some operand => do
    let r ← Scope.resolve ⟨definitions, none⟩ operand.literal operand.span
    match r.value with
    | some value => do
      Draft.checkTarget e.opcode value operand.span
      pure (some (.resolved value), r.through)
    | none => pure (some (.pending operand), r.through)

theorem dropLast_append_getLast? (es : List Emission) :
    es.dropLast ++ es.getLast?.toList = es := by
  cases h : es.getLast? with
  | none =>
      rw [List.getLast?_eq_none_iff.mp h]
      rfl
  | some e => exact List.dropLast_append_getLast? e h

/-- Placing an emission is settling its operand and appending it. -/
theorem Draft.place_eq (d : Draft) (e : Emission) :
    d.place e =
      (e.slot d.definitions).map fun s => (d.remember s.2).append e.opcode s.1 := by
  unfold Draft.place Emission.slot
  cases e.operand with
  | none => rfl
  | some operand =>
      simp only
      cases Scope.resolve ⟨d.definitions, none⟩ operand.literal operand.span with
      | error err => rfl
      | ok r =>
          obtain ⟨value, through⟩ := r
          cases value with
          | none => rfl
          | some w =>
              simp only [bind, Except.bind]
              cases Draft.checkTarget e.opcode w operand.span <;> rfl

/-- What an operand becomes is right for the names so far. -/
theorem SourceProgram.holds_of_slot {definitions : NameTable VariableDefinition}
    {p : SourceProgram} (hd : Defines definitions p) {e : Emission} {slot : Option Slot}
    {through : List String} (h : e.slot definitions = .ok (slot, through)) :
    p.Holds e ⟨e.opcode, slot⟩ ∧ ∀ name ∈ through, p.Visits e name := by
  obtain ⟨op, operand⟩ := e
  cases operand with
  | none =>
      cases h
      exact ⟨.bare op, fun _ hn => absurd hn List.not_mem_nil⟩
  | some operand =>
      simp only [Emission.slot, Except.bind_eq_ok_iff] at h
      obtain ⟨⟨value, t⟩, hr, h⟩ := h
      cases value with
      | none =>
          cases h
          obtain ⟨-, name, hm, -⟩ := Scope.resolve_eq_none_iff.mp hr
          rw [bindings_eq_early hd] at hm
          exact ⟨.pending op operand, fun x hx => ⟨operand, _, _, rfl, hm, hx⟩⟩
      | some w =>
          simp only [Except.bind_eq_ok_iff, Except.pure_eq_ok_iff, Prod.mk.injEq] at h
          obtain ⟨⟨⟩, ht, rfl, rfl⟩ := h
          obtain ⟨m, v, hm, hsays, h0, h1, rfl⟩ := Scope.resolve_eq_some_iff.mp hr
          rw [bindings_eq_early hd] at hm hsays
          refine ⟨.resolved ⟨_, _, hm, hsays⟩ h0 h1 ?_, fun x hx => ⟨operand, _, _, rfl, hm, hx⟩⟩
          exact (Draft.checkTarget_eq_ok_iff h0 h1).mp ht

/-- An operand that has a meaning in the whole program is never refused
early. -/
theorem Emission.slot_ok {definitions : NameTable VariableDefinition} {p q : SourceProgram}
    (hd : Defines definitions p) {e : Emission} {i : Instruction}
    (h : SourceProgram.Means (p ++ q) e i) : ∃ s, e.slot definitions = .ok s := by
  cases h with
  | bare op => exact ⟨_, rfl⟩
  | @withOperand op operand v hv h0 h1 ht =>
      have he : (SourceProgram.bindings (p ++ q)).Extends (Scope.bindings ⟨definitions, none⟩) := by
        rw [bindings_eq_early hd]
        exact SourceProgram.extends_append p q
      obtain ⟨t, hr | hr⟩ := Scope.resolve_ok_of_denotes operand.span rfl he hv h0 h1
      · refine ⟨(some (.pending operand), t), ?_⟩
        simp only [Emission.slot, hr]
        rfl
      · refine ⟨(some (.resolved (Int32.ofInt v)), t), ?_⟩
        simp only [Emission.slot, hr, bind, Except.bind,
          (Draft.checkTarget_eq_ok_iff h0 h1).mpr ht]
        rfl

namespace Draft

variable {d d' : Draft} {p : SourceProgram}

/-! ## Several emissions -/

theorem mem_foldl_note {through names : List String} {name : String} :
    name ∈ through.foldl (fun names n => if n ∈ names then names else names ++ [n]) names ↔
      name ∈ names ∨ name ∈ through := by
  induction through generalizing names with
  | nil => simp
  | cons n through ih =>
      rw [List.foldl_cons, ih, List.mem_cons]
      split
      · next hn =>
        constructor
        · rintro (h | h)
          · exact .inl h
          · exact .inr (.inr h)
        · rintro (h | rfl | h)
          · exact .inl h
          · exact .inl hn
          · exact .inr h
      · simp [or_assoc]

/-- The names that an operand went through are remembered, besides those from
before. -/
theorem mem_remember {through : List String} {name : String} :
    name ∈ (d.remember through).referenced ↔ name ∈ d.referenced ∨ name ∈ through :=
  mem_foldl_note

/-- What placing emissions changes in a draft, and that the rest stays. -/
structure Places (p : SourceProgram) (es : List Emission) (d d' : Draft) : Prop where
  definitions : d'.definitions = d.definitions
  labels : d'.labels = d.labels
  openLabel : d'.openLabel = d.openLabel
  size : d'.size = d.size + codeSize es
  placed : ∃ ps, d'.placed.toList = d.placed.toList ++ ps ∧ List.Forall₂ p.Holds es ps
  referenced : ∀ name ∈ d'.referenced, name ∈ d.referenced ∨ ∃ e ∈ es, p.Visits e name

/-- Placing nothing leaves a draft as it is. -/
theorem Places.refl (p : SourceProgram) (d : Draft) : Places p [] d d where
  definitions := rfl
  labels := rfl
  openLabel := rfl
  size := rfl
  placed := ⟨[], (List.append_nil _).symm, .nil⟩
  referenced _ hn := .inl hn

/-- Placing one emission. -/
theorem place_places (hd : Defines d.definitions p) {e : Emission} (h : d.place e = .ok d') :
    Places p [e] d d' := by
  rw [place_eq] at h
  obtain ⟨⟨slot, through⟩, hs, rfl⟩ := Except.map_eq_ok_iff.mp h
  obtain ⟨hholds, hvisits⟩ := SourceProgram.holds_of_slot hd hs
  refine ⟨rfl, rfl, rfl, ?_, ?_, ?_⟩
  · simp [append, remember]
  · exact ⟨[⟨e.opcode, slot⟩], by simp [append, remember], .cons hholds .nil⟩
  · intro name hn
    rcases mem_remember.mp hn with hn | hn
    · exact .inl hn
    · exact .inr ⟨e, List.mem_singleton_self e, hvisits name hn⟩

/-- Placing some emissions, and then others. -/
theorem Places.trans {es es' : List Emission} {d'' : Draft} (h : Places p es d d')
    (h' : Places p es' d' d'') : Places p (es ++ es') d d'' where
  definitions := h'.definitions.trans h.definitions
  labels := h'.labels.trans h.labels
  openLabel := h'.openLabel.trans h.openLabel
  size := by rw [h'.size, h.size, codeSize_append, Nat.add_assoc]
  placed := by
    obtain ⟨ps, hps, hholds⟩ := h.placed
    obtain ⟨ps', hps', hholds'⟩ := h'.placed
    refine ⟨ps ++ ps', ?_, List.rel_append hholds hholds'⟩
    rw [hps', hps, List.append_assoc]
  referenced := by
    intro name hn
    rcases h'.referenced name hn with hn | ⟨e, he, hv⟩
    · rcases h.referenced name hn with hn | ⟨e, he, hv⟩
      · exact .inl hn
      · exact .inr ⟨e, List.mem_append_left _ he, hv⟩
    · exact .inr ⟨e, List.mem_append_right _ he, hv⟩

/-- Placing all emissions of a line. -/
theorem placeAll_places (hd : Defines d.definitions p) {es : List Emission}
    (h : d.placeAll es = .ok d') : Places p es d d' := by
  induction es generalizing d with
  | nil =>
      cases h
      exact .refl p _
  | cons e es ih =>
      obtain ⟨d₁, h₁, h⟩ := Except.bind_eq_ok_iff.mp h
      have hp := place_places hd h₁
      exact hp.trans (ih (hp.definitions ▸ hd) h)

/-- Emissions are placed if none of their operands is refused. -/
theorem placeAll_ok {es : List Emission} (h : ∀ e ∈ es, ∃ s, e.slot d.definitions = .ok s) :
    ∃ d', d.placeAll es = .ok d' := by
  induction es generalizing d with
  | nil => exact ⟨d, rfl⟩
  | cons e es ih =>
      obtain ⟨s, hs⟩ := h e List.mem_cons_self
      let d₁ := (d.remember s.2).append e.opcode s.1
      have hplace : d.place e = .ok d₁ := by
        rw [place_eq, hs]
        rfl
      have hrest : ∀ x ∈ es, ∃ s, x.slot d₁.definitions = .ok s :=
        fun x hx => h x (List.mem_cons_of_mem e hx)
      obtain ⟨d', hd'⟩ := ih hrest
      exact ⟨d', Except.bind_eq_ok_iff.mpr ⟨d₁, hplace, hd'⟩⟩

/-! ## Labels -/

/-- The address of an offset; past the address space it is the last one. -/
def offsetAddress (n : Nat) : Address := UInt32.ofNat (min n (UInt32.size - 1))

/-- A table holds the labels of a list, which are all different. -/
structure Tracks (labels : NameTable LabelDefinition) (ls : List (String × Nat)) : Prop where
  find? : ∀ name, (labels.find? name).map (·.offset) = (ls.lookup name).map offsetAddress
  distinct : (ls.map Prod.fst).Nodup

/-- A label is free exactly if it is not among those that were placed. -/
theorem Tracks.find?_eq_none_iff {labels : NameTable LabelDefinition} {ls : List (String × Nat)}
    (h : Tracks labels ls) {name : String} :
    labels.find? name = none ↔ name ∉ ls.map Prod.fst := by
  have hmap : (labels.find? name).map (·.offset) = none ↔ labels.find? name = none :=
    Option.map_eq_none_iff
  rw [← hmap, h.find? name, Option.map_eq_none_iff, List.lookup_eq_none_iff]
  constructor
  · intro hne hmem
    obtain ⟨l, hl, rfl⟩ := List.mem_map.mp hmem
    simpa using hne l hl
  · intro hmem l hl
    rw [bne_iff_ne]
    intro heq
    exact hmem (heq ▸ List.mem_map_of_mem hl)

theorem lookup_pair {key name : String} {n : Nat} :
    [(key, n)].lookup name = if key = name then some n else none := by
  rw [List.lookup_cons]
  by_cases h : key = name
  · simp [h]
  · simp [h, beq_eq_false_iff_ne.mpr (Ne.symm h)]

/-- A draft with a label, if there is one, at its end. -/
def withLabel (d : Draft) : Option (String × Span) → Draft
  | some (name, span) => { d with labels := d.labels.insert name ⟨offsetAddress d.size, span⟩ }
  | none => d

@[simp] theorem withLabel_definitions (label : Option (String × Span)) :
    (d.withLabel label).definitions = d.definitions := by
  cases label <;> rfl

@[simp] theorem withLabel_size (label : Option (String × Span)) :
    (d.withLabel label).size = d.size := by
  cases label <;> rfl

@[simp] theorem withLabel_placed (label : Option (String × Span)) :
    (d.withLabel label).placed = d.placed := by
  cases label <;> rfl

@[simp] theorem withLabel_openLabel (label : Option (String × Span)) :
    (d.withLabel label).openLabel = d.openLabel := by
  cases label <;> rfl

@[simp] theorem withLabel_referenced (label : Option (String × Span)) :
    (d.withLabel label).referenced = d.referenced := by
  cases label <;> rfl

/-- A label can be defined exactly if its name is free. -/
theorem defineLabel?_eq_ok_iff {label : Option (String × Span)} :
    d.defineLabel? label = .ok d' ↔
      (∀ l ∈ label, d.labels.find? l.1 = none) ∧ d' = d.withLabel label := by
  cases label with
  | none => simp [defineLabel?, withLabel, eq_comm]
  | some l =>
      simp only [defineLabel?, defineLabel, withLabel, Option.mem_some_iff]
      cases h : d.labels.find? l.1 with
      | none => simp [h, offsetAddress, eq_comm]
      | some first => simp [h]

/-- A label that is defined comes behind those in the table, at the end of what
was placed. -/
theorem Tracks.withLabel {ls : List (String × Nat)} (h : Tracks d.labels ls)
    {label : Option (String × Span)} (hnew : ∀ l ∈ label, d.labels.find? l.1 = none) :
    Tracks (d.withLabel label).labels (ls ++ (label.map fun l => (l.1, d.size)).toList) := by
  cases label with
  | none => simpa [Draft.withLabel] using h
  | some l =>
      have hfresh := hnew l rfl
      have hnotin := h.find?_eq_none_iff.mp hfresh
      refine ⟨fun name => ?_, ?_⟩
      · rw [List.lookup_append, Option.map_or, ← h.find?]
        simp only [Draft.withLabel, NameTable.find?_insert, Option.map_some, Option.toList_some,
          lookup_pair]
        by_cases hl : l.1 = name
        · rw [if_pos hl, if_pos hl, ← hl, hfresh]
          rfl
        · rw [if_neg hl, if_neg hl]
          simp
      · simp only [Option.map_some, Option.toList_some, List.map_append, List.map_cons,
          List.map_nil]
        refine List.nodup_append.mpr ⟨h.distinct, by simp, ?_⟩
        intro a ha b hb hab
        rw [List.mem_singleton] at hb
        exact hnotin (hb ▸ hab ▸ ha)

/-! ## Lines -/

/-- A draft holds what a program says, as far as the first pass goes. -/
structure Reflects (d : Draft) (p : SourceProgram) : Prop where
  size : d.size = p.size
  placed : List.Forall₂ p.Holds p.emissions d.placed.toList
  defines : Defines d.definitions p
  labels : Tracks d.labels p.labels
  openLabel : d.openLabel.map Prod.fst = p.waitingAfter none
  referenced : ∀ name ∈ d.referenced, ∃ e ∈ p.emissions, p.Visits e name
  unblocked : p.Unblocked none

/-- An empty draft stands for an empty program. -/
theorem reflects_nil : Reflects {} [] where
  size := rfl
  placed := .nil
  defines _ := rfl
  labels := ⟨fun _ => rfl, .nil⟩
  openLabel := rfl
  referenced _ hn := absurd hn List.not_mem_nil
  unblocked := trivial

/-- A second label is refused while one waits for its instruction. -/
theorem checkNoOpenLabel_eq_ok_iff {name : String} {span : Span} :
    d.checkNoOpenLabel name span = .ok () ↔ d.openLabel = none := by
  unfold checkNoOpenLabel
  cases d.openLabel with
  | none => simp
  | some l => simp

theorem closeLabel_eq_self (h : d.openLabel = none) : d.closeLabel = d := by
  unfold closeLabel
  rw [← h]

/-- The label that an instruction line places. -/
def labelOf (d : Draft) (line : SourceLine) : Option Lexeme → Option (String × Span)
  | some name => some (name.text, line.spanOf name)
  | none => d.openLabel

/-- The label of an instruction is the one on its line or else the one that is
open. -/
theorem map_labelOf (d : Draft) (line : SourceLine) (mark : Option Lexeme) :
    (d.labelOf line mark).map Prod.fst = (mark.map (·.text)).or (d.openLabel.map Prod.fst) := by
  cases mark with
  | none => simp [labelOf]
  | some name => simp [labelOf]

/-- The label that an instruction line places, and the draft that the line goes
on from. -/
def takeLabel (d : Draft) (line : SourceLine) :
    Option Lexeme → Except AssemblyError (Option (String × Span) × Draft)
  | some name => do
    d.checkNoOpenLabel name.text (line.spanOf name)
    pure (some (name.text, line.spanOf name), d)
  | none => .ok (d.openLabel, d.closeLabel)

/-- Place instructions, with a label on the last one. -/
def layOut (d : Draft) (label : Option (String × Span)) (es : List Emission) :
    Except AssemblyError Draft := do
  let d ← d.placeAll es.dropLast
  let d ← d.defineLabel? label
  d.placeAll es.getLast?.toList

/-- An instruction line is taken in in three steps. -/
theorem ingestInstruction_eq (d : Draft) (line : SourceLine) (mark : Option Lexeme)
    (mnemonic : Lexeme) (arguments : List Lexeme) :
    d.ingestInstruction line mark mnemonic arguments =
      (do
        let s ← d.takeLabel line mark
        let es ← Expansion.expand line mnemonic arguments
        s.2.layOut s.1 es) := by
  cases mark with
  | none => rfl
  | some name =>
      simp only [ingestInstruction, takeLabel, bind_assoc, pure_bind]
      rfl

/-- When a variable line is taken in, and what it makes of a draft. -/
theorem ingestVariable_eq_ok_iff {line : SourceLine} {name value : Lexeme}
    {next : Logged Draft} :
    d.ingestVariable line name value = .ok next ↔
      (∀ l ∈ d.openLabel, d.labels.find? l.1 = none) ∧
        ∃ literal, Literal.read? value.text.toList = some literal ∧
          next =
            if (d.definitions.find? name.text).isSome then
              .noting (redefinitionEvent name.text line.number) (d.closeLabel.withLabel d.openLabel)
            else
              .quiet ((d.closeLabel.withLabel d.openLabel).defineVariable name.text
                ⟨literal, line.spanOf value⟩) := by
  have hdefs : (d.closeLabel.withLabel d.openLabel).definitions = d.definitions :=
    withLabel_definitions d.openLabel
  rw [ingestVariable, Except.bind_eq_ok_iff]
  simp only [defineLabel?_eq_ok_iff, and_assoc, exists_and_left, exists_eq_left]
  refine and_congr_right fun _ => ?_
  cases Literal.read? value.text.toList with
  | none => simp
  | some literal =>
      simp only [NameTable.contains, hdefs, Option.some.injEq, exists_eq_left']
      split
      · exact Except.pure_eq_ok_iff.trans eq_comm
      · exact Except.pure_eq_ok_iff.trans eq_comm

/-- When an instruction line is taken in, and what it makes of a draft. -/
theorem ingestInstruction_eq_ok_iff {line : SourceLine} {mark : Option Lexeme}
    {mnemonic : Lexeme} {arguments : List Lexeme} :
    d.ingestInstruction line mark mnemonic arguments = .ok d' ↔
      (mark ≠ none → d.openLabel = none) ∧
        ∃ es, Expansion.expand line mnemonic arguments = .ok es ∧
          ∃ d₁, d.closeLabel.placeAll es.dropLast = .ok d₁ ∧
            (∀ l ∈ d.labelOf line mark, d₁.labels.find? l.1 = none) ∧
              (d₁.withLabel (d.labelOf line mark)).placeAll es.getLast?.toList = .ok d' := by
  cases mark with
  | none =>
      simp only [ingestInstruction, Except.bind_eq_ok_iff, Except.pure_eq_ok_iff, labelOf,
        defineLabel?_eq_ok_iff]
      simp
  | some name =>
      simp only [ingestInstruction, Except.bind_eq_ok_iff, Except.pure_eq_ok_iff, labelOf,
        defineLabel?_eq_ok_iff]
      constructor
      · rintro ⟨⟨⟩, hcheck, _, rfl, es, hes, d₁, h₁, d₂, ⟨hnew, rfl⟩, h₂⟩
        have hnone := checkNoOpenLabel_eq_ok_iff.mp hcheck
        rw [closeLabel_eq_self hnone]
        exact ⟨fun _ => hnone, es, hes, d₁, h₁, hnew, h₂⟩
      · rintro ⟨hnone, es, hes, d₁, h₁, hnew, h₂⟩
        have hopen := hnone (by simp)
        rw [closeLabel_eq_self hopen] at h₁
        exact ⟨(), checkNoOpenLabel_eq_ok_iff.mpr hopen, _, rfl, es, hes, d₁, h₁, _,
          ⟨hnew, rfl⟩, h₂⟩

/-- A line without a definition leaves the variables as they are. -/
theorem Reflects.defines_snoc {e : SourceEntry} (hr : d.Reflects p)
    (h : ∀ name, e.definition? name = none) : Defines d.definitions (p ++ [e]) := by
  intro name
  rw [SourceProgram.definition?_append, SourceProgram.definition?_singleton, h, Option.or_none,
    hr.defines name]

/-- A second definition of a variable changes nothing. -/
theorem Reflects.defines_ignored (hr : d.Reflects p) {name : String} (value : Literal)
    (h : (d.definitions.find? name).isSome) :
    Defines d.definitions (p ++ [.definition name value]) := by
  intro other
  rw [SourceProgram.definition?_append, SourceProgram.definition?_singleton, ← hr.defines other,
    SourceEntry.definition?]
  split
  · next heq =>
    obtain ⟨first, hfirst⟩ := Option.isSome_iff_exists.mp h
    rw [← heq, hfirst]
    rfl
  · rw [Option.or_none]

/-- A new definition is found under its name. -/
theorem Reflects.defines_insert (hr : d.Reflects p) {name : String}
    (definition : VariableDefinition) (h : ¬(d.definitions.find? name).isSome) :
    Defines (d.definitions.insert name definition)
      (p ++ [.definition name definition.literal]) := by
  intro other
  rw [SourceProgram.definition?_append, SourceProgram.definition?_singleton, ← hr.defines other,
    SourceEntry.definition?, NameTable.find?_insert]
  split
  · next heq =>
    rw [← heq, Option.not_isSome_iff_eq_none.mp h]
    rfl
  · rw [Option.or_none]

/-- A line keeps a draft in step with the program if it adds what its entry
says. -/
theorem Reflects.snoc {e : SourceEntry} (hr : d.Reflects p)
    (size : d'.size = d.size + codeSize e.emissions)
    (placed : ∃ ps, d'.placed.toList = d.placed.toList ++ ps ∧ List.Forall₂ p.Holds e.emissions ps)
    (defines : Defines d'.definitions (p ++ [e]))
    (labels : Tracks d'.labels (p.labels ++
      ((e.placed? (d.openLabel.map Prod.fst)).map fun l => (l.1, d.size + l.2)).toList))
    (openLabel : d'.openLabel.map Prod.fst = e.waiting?)
    (referenced : ∀ name ∈ d'.referenced,
      name ∈ d.referenced ∨ ∃ x ∈ e.emissions, p.Visits x name)
    (admits : e.admits (d.openLabel.map Prod.fst)) : d'.Reflects (p ++ [e]) where
  size := by rw [size, hr.size, SourceProgram.size_append, SourceProgram.size_singleton]
  placed := by
    obtain ⟨ps, hps, hholds⟩ := placed
    rw [hps, SourceProgram.emissions_append, SourceProgram.emissions_singleton]
    refine List.rel_append ?_ ?_
    · exact hr.placed.imp fun _ _ h => h.append [e]
    · exact hholds.imp fun _ _ h => h.append [e]
  defines := defines
  labels := by
    rw [hr.openLabel, hr.size] at labels
    rw [SourceProgram.labels_append]
    simpa only [SourceProgram.labelsFrom, List.append_nil, Option.toList_map] using labels
  openLabel := by
    rw [openLabel, SourceProgram.waitingAfter_append]
    rfl
  referenced := by
    intro name hn
    rw [SourceProgram.emissions_append, SourceProgram.emissions_singleton]
    rcases referenced name hn with hn | ⟨x, hx, hv⟩
    · obtain ⟨x, hx, hv⟩ := hr.referenced name hn
      exact ⟨x, List.mem_append_left _ hx, hv.append [e]⟩
    · exact ⟨x, List.mem_append_right _ hx, hv.append [e]⟩
  unblocked := by
    rw [SourceProgram.unblocked_append, ← hr.openLabel]
    exact ⟨hr.unblocked, admits, trivial⟩

/-- An instruction that is taken in adds its emissions and its label to the
program. -/
theorem Reflects.ingestInstruction {line : SourceLine} {mark : Option Lexeme}
    {mnemonic : Lexeme} {arguments : List Lexeme} (hr : d.Reflects p)
    (h : d.ingestInstruction line mark mnemonic arguments = .ok d') :
    ∃ es, Expansion.expand line mnemonic arguments = .ok es ∧
      d'.Reflects (p ++ [.code (mark.map (·.text)) es]) := by
  obtain ⟨hopen, es, hes, d₁, h₁, hnew, h₂⟩ := ingestInstruction_eq_ok_iff.mp h
  have hp₁ := placeAll_places (d := d.closeLabel) hr.defines h₁
  have hdefs : (d₁.withLabel (d.labelOf line mark)).definitions = d.definitions := by
    rw [withLabel_definitions, hp₁.definitions]
    rfl
  have hp₂ := placeAll_places (by rw [hdefs]; exact hr.defines) h₂
  have hsplit := dropLast_append_getLast? es
  refine ⟨es, hes, hr.snoc ?_ ?_ ?_ ?_ ?_ ?_ ?_⟩
  · rw [hp₂.size, withLabel_size, hp₁.size, Nat.add_assoc, ← codeSize_append, hsplit]
    rfl
  · obtain ⟨ps₁, hps₁, hholds₁⟩ := hp₁.placed
    obtain ⟨ps₂, hps₂, hholds₂⟩ := hp₂.placed
    refine ⟨ps₁ ++ ps₂, ?_, ?_⟩
    · rw [hps₂, withLabel_placed, hps₁, List.append_assoc]
      rfl
    · have hboth : List.Forall₂ p.Holds (es.dropLast ++ es.getLast?.toList) (ps₁ ++ ps₂) :=
        List.rel_append hholds₁ hholds₂
      rwa [hsplit] at hboth
  · rw [hp₂.definitions, hdefs]
    exact hr.defines_snoc fun _ => rfl
  · have htracks : Tracks d₁.labels p.labels := by
      rw [hp₁.labels]
      exact hr.labels
    rw [hp₂.labels]
    have hlabel := htracks.withLabel hnew
    rw [hp₁.size] at hlabel
    rw [SourceEntry.placed?, ← map_labelOf d line mark, Option.map_map, Option.map_map]
    exact hlabel
  · rw [hp₂.openLabel, withLabel_openLabel, hp₁.openLabel]
    rfl
  · intro name hn
    rcases hp₂.referenced name hn with hn | ⟨x, hx, hv⟩
    · rw [withLabel_referenced] at hn
      rcases hp₁.referenced name hn with hn | ⟨x, hx, hv⟩
      · exact .inl hn
      · exact .inr ⟨x, List.dropLast_subset es hx, hv⟩
    · exact .inr ⟨x, List.mem_of_getLast? (Option.mem_toList.mp hx), hv⟩
  · cases mark with
    | none => trivial
    | some name => exact congrArg (Option.map Prod.fst) (hopen (by simp))

/-- A definition that is taken in adds itself to the program. -/
theorem Reflects.ingestVariable {line : SourceLine} {name value : Lexeme} {next : Logged Draft}
    (hr : d.Reflects p) (h : d.ingestVariable line name value = .ok next) :
    ∃ literal, Literal.read? value.text.toList = some literal ∧
      next.value.Reflects (p ++ [.definition name.text literal]) := by
  obtain ⟨hnew, literal, hl, rfl⟩ := ingestVariable_eq_ok_iff.mp h
  have hdefs : (d.closeLabel.withLabel d.openLabel).definitions = d.definitions :=
    withLabel_definitions d.openLabel
  have hsize : (d.closeLabel.withLabel d.openLabel).size = d.size := withLabel_size d.openLabel
  have hplaced : (d.closeLabel.withLabel d.openLabel).placed = d.placed :=
    withLabel_placed d.openLabel
  have hopen : (d.closeLabel.withLabel d.openLabel).openLabel = none :=
    withLabel_openLabel d.openLabel
  have hreferenced : (d.closeLabel.withLabel d.openLabel).referenced = d.referenced :=
    withLabel_referenced d.openLabel
  have hlabels : Tracks (d.closeLabel.withLabel d.openLabel).labels (p.labels ++
      ((SourceEntry.placed? (d.openLabel.map Prod.fst) (.definition name.text literal)).map
        fun l => (l.1, d.size + l.2)).toList) := by
    have htracks : Tracks d.closeLabel.labels p.labels := hr.labels
    rw [SourceEntry.placed?, Option.map_map, Option.map_map]
    exact htracks.withLabel hnew
  generalize d.closeLabel.withLabel d.openLabel = d₁ at *
  refine ⟨literal, hl, ?_⟩
  split
  · next hold =>
    refine hr.snoc hsize ⟨[], ?_, .nil⟩ ?_ hlabels ?_ ?_ trivial
    · simp [Logged.noting, hplaced]
    · have hfinal := hr.defines_ignored literal hold
      rwa [← hdefs] at hfinal
    · exact congrArg (Option.map Prod.fst) hopen
    · exact fun x hx => .inl (hreferenced ▸ hx)
  · next hnot =>
    refine hr.snoc hsize ⟨[], ?_, .nil⟩ ?_ hlabels ?_ ?_ trivial
    · simp [Logged.quiet, defineVariable, hplaced]
    · have hfinal := hr.defines_insert ⟨literal, line.spanOf value⟩ hnot
      rwa [← hdefs] at hfinal
    · exact congrArg (Option.map Prod.fst) hopen
    · exact fun x hx => .inl (hreferenced ▸ hx)

/-- One line keeps a draft in step with the program. -/
theorem Reflects.ingest {line : SourceLine} {next : Logged Draft} (hr : d.Reflects p)
    (h : d.ingest line = .ok next) :
    ∃ e, SourceEntry.ofLine? line = some e ∧ next.value.Reflects (p ++ [e]) := by
  unfold Draft.ingest at h
  rw [SourceEntry.ofLine?]
  split at h
  · cases h
  · next name hread =>
    obtain ⟨⟨⟩, hcheck, hnext⟩ := Except.bind_eq_ok_iff.mp h
    cases hnext
    have hopen := checkNoOpenLabel_eq_ok_iff.mp hcheck
    refine ⟨.label name.text, by rw [hread]; rfl, hr.snoc rfl ⟨[], ?_, .nil⟩ ?_ ?_ rfl ?_ ?_⟩
    · simp [Logged.quiet]
    · exact hr.defines_snoc fun _ => rfl
    · rw [SourceEntry.placed?, Option.map_none, Option.toList_none, List.append_nil]
      exact hr.labels
    · exact fun x hx => .inl hx
    · exact congrArg (Option.map Prod.fst) hopen
  · next name value hread =>
    obtain ⟨literal, hl, hr'⟩ := hr.ingestVariable h
    refine ⟨_, ?_, hr'⟩
    rw [hread, Option.bind_some, SourceEntry.ofStatement?, hl, Option.map_some]
  · next mark mnemonic arguments hread =>
    obtain ⟨d₁, h₁, hnext⟩ := Except.bind_eq_ok_iff.mp h
    cases hnext
    obtain ⟨es, hes, hr'⟩ := hr.ingestInstruction h₁
    refine ⟨_, ?_, hr'⟩
    rw [hread, Option.bind_some, SourceEntry.ofStatement?, hes]

/-- A label that the whole program places once is new. -/
theorem Reflects.label_new {e : SourceEntry} (hr : d.Reflects p)
    (hdistinct : (SourceProgram.labels (p ++ [e])).map Prod.fst |>.Nodup) {name : String} {n : Nat}
    (hl : e.placed? (d.openLabel.map Prod.fst) = some (name, n)) :
    d.labels.find? name = none := by
  rw [hr.labels.find?_eq_none_iff]
  rw [hr.openLabel] at hl
  rw [SourceProgram.labels_append, SourceProgram.labelsFrom, hl, List.map_append] at hdistinct
  intro hmem
  exact (List.nodup_append.mp hdistinct).2.2 name hmem name (by simp) rfl

/-- A line is taken in unless its entry misplaces a label or one of its
operands is refused early. -/
theorem Reflects.ingest_ok {line : SourceLine} {e : SourceEntry} (hr : d.Reflects p)
    (hline : SourceEntry.ofLine? line = some e)
    (hdistinct : (SourceProgram.labels (p ++ [e])).map Prod.fst |>.Nodup)
    (hadmits : e.admits (p.waitingAfter none))
    (hslots : ∀ x ∈ e.emissions, ∃ s, x.slot d.definitions = .ok s) :
    ∃ next, d.ingest line = .ok next := by
  obtain ⟨statement, hread, he⟩ := Option.bind_eq_some_iff.mp hline
  rw [← hr.openLabel] at hadmits
  unfold Draft.ingest
  rw [hread]
  cases statement with
  | label name =>
      cases he
      have hopen : d.openLabel = none := Option.map_eq_none_iff.mp hadmits
      exact ⟨_, Except.bind_eq_ok_iff.mpr ⟨(), checkNoOpenLabel_eq_ok_iff.mpr hopen, rfl⟩⟩
  | definition name value =>
      obtain ⟨literal, hl, rfl⟩ := Option.map_eq_some_iff.mp he
      refine ⟨_, ingestVariable_eq_ok_iff.mpr ⟨fun l hopen => ?_, literal, hl, rfl⟩⟩
      refine hr.label_new (n := 0) hdistinct ?_
      rw [SourceEntry.placed?, Option.mem_def.mp hopen]
      rfl
  | instruction mark mnemonic arguments =>
      simp only [SourceEntry.ofStatement?] at he
      split at he
      · next es hes =>
        cases he
        have hopen : mark ≠ none → d.openLabel = none := by
          intro hmark
          obtain ⟨name, rfl⟩ := Option.ne_none_iff_exists'.mp hmark
          exact Option.map_eq_none_iff.mp hadmits
        obtain ⟨d₁, h₁⟩ := placeAll_ok (d := d.closeLabel)
          fun x hx => hslots x (List.dropLast_subset es hx)
        have hp₁ := placeAll_places (d := d.closeLabel) hr.defines h₁
        have hnew : ∀ l ∈ d.labelOf line mark, d₁.labels.find? l.1 = none := by
          intro l hl
          rw [hp₁.labels]
          refine hr.label_new (n := codeSize es.dropLast) hdistinct ?_
          rw [SourceEntry.placed?, ← map_labelOf d line mark, Option.mem_def.mp hl]
          rfl
        have hlast : ∀ x ∈ es.getLast?.toList,
            ∃ s, x.slot (d₁.withLabel (d.labelOf line mark)).definitions = .ok s := by
          intro x hx
          rw [withLabel_definitions, hp₁.definitions]
          exact hslots x (List.mem_of_getLast? (Option.mem_toList.mp hx))
        obtain ⟨d₂, h₂⟩ := placeAll_ok hlast
        have hline' := ingestInstruction_eq_ok_iff.mpr ⟨hopen, es, hes, d₁, h₁, hnew, h₂⟩
        exact ⟨_, Except.bind_eq_ok_iff.mpr ⟨d₂, hline', rfl⟩⟩
      · cases he

/-! ## All lines -/

/-- Several lines are taken in one after the other. -/
theorem value_ingestAll_cons (d : Draft) (line : SourceLine) (lines : List SourceLine) :
    (d.ingestAll (line :: lines)).value =
      d.ingest line >>= fun next => (next.value.ingestAll lines).value := by
  rw [ingestAll]
  cases d.ingest line <;> rfl

/-- All lines keep a draft in step with the program. -/
theorem Reflects.ingestAll {lines : List SourceLine} (hr : d.Reflects p)
    (h : (d.ingestAll lines).value = .ok d') :
    ∃ q, SourceProgram.ofLines? lines = some q ∧ d'.Reflects (p ++ q) := by
  induction lines generalizing d p with
  | nil =>
      cases h
      exact ⟨[], rfl, by rwa [List.append_nil]⟩
  | cons line lines ih =>
      rw [value_ingestAll_cons] at h
      obtain ⟨next, hnext, h⟩ := Except.bind_eq_ok_iff.mp h
      obtain ⟨e, he, hr'⟩ := hr.ingest hnext
      obtain ⟨q, hq, hr''⟩ := ih hr' h
      refine ⟨e :: q, by rw [SourceProgram.ofLines?, he, hq]; rfl, ?_⟩
      rwa [List.append_assoc] at hr''

/-- The first pass takes in the lines of a program whose labels can be placed
and whose instructions all have a meaning in the end. -/
theorem Reflects.ingestAll_ok {lines : List SourceLine} {q : SourceProgram} (hr : d.Reflects p)
    (hq : SourceProgram.ofLines? lines = some q)
    (hdistinct : (SourceProgram.labels (p ++ q)).map Prod.fst |>.Nodup)
    (hunblocked : SourceProgram.Unblocked none (p ++ q))
    (hmeans : ∀ e ∈ q.emissions, ∃ i, SourceProgram.Means (p ++ q) e i) :
    ∃ d', (d.ingestAll lines).value = .ok d' := by
  induction lines generalizing d p q with
  | nil => exact ⟨d, rfl⟩
  | cons line lines ih =>
      obtain ⟨e, he, hq⟩ := Option.bind_eq_some_iff.mp hq
      obtain ⟨q, hq', rfl⟩ := Option.map_eq_some_iff.mp hq
      have happend : p ++ e :: q = (p ++ [e]) ++ q := List.append_cons p e q
      have hmeans' : ∀ x ∈ e.emissions ++ SourceProgram.emissions q,
          ∃ i, SourceProgram.Means (p ++ e :: q) x i := hmeans
      have hslots : ∀ x ∈ e.emissions, ∃ s, x.slot d.definitions = .ok s := by
        intro x hx
        obtain ⟨i, hi⟩ := hmeans' x (List.mem_append_left _ hx)
        exact Emission.slot_ok hr.defines hi
      have hadmits : e.admits (p.waitingAfter none) :=
        ((SourceProgram.unblocked_append p (e :: q) none).mp hunblocked).2.1
      rw [happend] at hdistinct hunblocked hmeans'
      have hdistinct₁ : (SourceProgram.labels (p ++ [e])).map Prod.fst |>.Nodup := by
        rw [SourceProgram.labels_append, List.map_append] at hdistinct
        exact (List.nodup_append.mp hdistinct).1
      obtain ⟨next, hnext⟩ := hr.ingest_ok he hdistinct₁ hadmits hslots
      obtain ⟨e', he', hr'⟩ := hr.ingest hnext
      obtain rfl : e = e' := Option.some.inj (he.symm.trans he')
      obtain ⟨d', hd'⟩ := ih hr' hq' hdistinct hunblocked
        fun x hx => hmeans' x (List.mem_append_right _ hx)
      rw [value_ingestAll_cons, hnext]
      exact ⟨d', hd'⟩

end Draft

end StackRisc
