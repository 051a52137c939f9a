import StackRisc.Proofs.Assembly.FirstPass

/-!
# StackRisc.Proofs.Assembly.SecondPass

What the second pass makes of a draft that is in step with its program.  All
names are in sight then, so every operand, settled early or left pending,
gets the number that it stands for in the whole program:

* `Draft.settle_of_means`, `Draft.means_of_settle` — one instruction;
* `Draft.emit_of_means`, `Draft.means_of_emit` — all instructions;
* `Assembles` — what an assembly holds of its program;
* `assembles_of_assemble`, `assemble_of_means` — exactly the programs whose
  labels can be placed, that fit and whose instructions all have a meaning
  are assembled.
-/

namespace StackRisc

/-! ## Labels in a program that fits -/

namespace SourceProgram

variable {p : SourceProgram}

/-- No label is placed behind the end of the program. -/
theorem le_of_mem_labelsFrom {waiting : Option String} {offset : Nat} {l : String × Nat}
    (h : l ∈ labelsFrom waiting offset p) : l.2 ≤ offset + p.size := by
  induction p generalizing waiting offset with
  | nil => contradiction
  | cons e p ih =>
      rw [size_cons]
      rcases List.mem_append.mp h with h | h
      · obtain ⟨l', hl', rfl⟩ := List.mem_map.mp h
        have hle : l'.2 ≤ codeSize e.emissions := by
          cases e with
          | label name => contradiction
          | definition name value =>
              obtain ⟨w, -, rfl⟩ := Option.map_eq_some_iff.mp (Option.mem_toList.mp hl')
              exact Nat.zero_le _
          | code mark es =>
              obtain ⟨w, -, rfl⟩ := Option.map_eq_some_iff.mp (Option.mem_toList.mp hl')
              show codeSize es.dropLast ≤ codeSize es
              conv => rhs; rw [← dropLast_append_getLast? es, codeSize_append]
              exact Nat.le_add_right _ _
        show offset + l'.2 ≤ _
        omega
      · have hle := ih h
        omega

/-- A label is in the program or at its end. -/
theorem le_size_of_label? {name : String} {n : Nat} (h : p.label? name = some n) :
    n ≤ p.size := by
  obtain ⟨l₁, l₂, hl, -⟩ := List.lookup_eq_some_iff.mp h
  have hmem : (name, n) ∈ labelsFrom none 0 p := by
    rw [show labelsFrom none 0 p = _ from hl]
    simp
  have hle := le_of_mem_labelsFrom hmem
  rwa [Nat.zero_add] at hle

/-- Labels only add names to variables. -/
theorem extends_early (p : SourceProgram) : p.bindings.Extends p.early := fun _ _ h => h

/-- A variable that stands for a number in range. -/
structure Readable (p : SourceProgram) (name : String) : Prop where
  defined : (p.definition? name).isSome
  denotes : ∃ v, p.bindings.Denotes (.reference name) v ∧ 0 ≤ v ∧ v ≤ Word.largest

end SourceProgram

namespace Draft

variable {d d' : Draft} {p : SourceProgram}

theorem offsetAddress_eq {n : Nat} (h : n ≤ offsetLimit) : offsetAddress n = UInt32.ofNat n := by
  have hlimit : offsetLimit ≤ UInt32.size - 1 := by decide
  rw [offsetAddress, Nat.min_eq_left (Nat.le_trans h hlimit)]

/-- Offsets of a program that fits are kept as addresses. -/
theorem toNat_offsetAddress {n : Nat} (h : n ≤ offsetLimit) : (offsetAddress n).toNat = n := by
  have hlimit : offsetLimit < UInt32.size := by decide
  rw [offsetAddress_eq h]
  exact UInt32.toNat_ofNat_of_lt' (Nat.lt_of_le_of_lt h hlimit)

/-- All names of a draft are those of its program. -/
theorem Reflects.bindings_eq (hr : d.Reflects p) (hsize : p.size ≤ offsetLimit) :
    d.scope.bindings = p.bindings := by
  have hlabel : ∀ name, (d.labels.find? name).map (·.offset.toNat) = p.label? name := by
    intro name
    have hfind := congrArg (Option.map UInt32.toNat) (hr.labels.find? name)
    rw [Option.map_map, Option.map_map] at hfind
    refine Eq.trans hfind ?_
    cases hl : p.label? name with
    | none =>
        rw [show p.labels.lookup name = none from hl]
        rfl
    | some n =>
        rw [show p.labels.lookup name = some n from hl]
        have hn := SourceProgram.le_size_of_label? hl
        simp [toNat_offsetAddress (Nat.le_trans hn hsize)]
  have hdefinition : ∀ name, (d.definitions.find? name).map (·.literal) = p.definition? name :=
    hr.defines
  rw [Scope.bindings, SourceProgram.bindings]
  congr 1
  · exact funext hdefinition
  · exact funext hlabel

/-- In a program that fits, the labels of a draft do not point past it. -/
theorem Reflects.offset_le (hr : d.Reflects p) (hsize : p.size ≤ offsetLimit) {name : String}
    {label : LabelDefinition} (h : d.labels.find? name = some label) :
    label.offset.toNat ≤ offsetLimit := by
  have hlabel : d.scope.bindings.label? name = some label.offset.toNat :=
    Option.map_eq_some_iff.mpr ⟨label, h, rfl⟩
  rw [hr.bindings_eq hsize] at hlabel
  exact Nat.le_trans (SourceProgram.le_size_of_label? hlabel) hsize

/-! ## One instruction -/

/-- Resolving with all names in sight gives the number that an operand
stands for. -/
theorem resolve_of_denotes (hb : d.scope.bindings = p.bindings) {l : Literal} {v : Int}
    (hv : p.bindings.Denotes l v) (h0 : 0 ≤ v) (h1 : v ≤ Word.largest) (span : Span) :
    ∃ t, d.scope.resolve l span = .ok ⟨some (Int32.ofInt v), t⟩ ∧ ∀ name ∈ t, p.Readable name := by
  obtain ⟨t, m, hm, hsays⟩ := hv
  refine ⟨t, ?_, fun name hn => ?_⟩
  · rw [← hb] at hm hsays
    exact Scope.resolve_eq_some_iff.mpr ⟨m, v, hm, hsays, h0, h1, rfl⟩
  · obtain ⟨s, hs, -⟩ := hm.exists_of_mem hn
    exact ⟨hm.isSome_of_mem hn, v, ⟨s, m, hs, hsays⟩, h0, h1⟩

/-- With all names in sight an operand that resolves has a value. -/
theorem denotes_of_resolve (hb : d.scope.bindings = p.bindings) {l : Literal} {span : Span}
    {r : Resolution} (h : d.scope.resolve l span = .ok r) :
    ∃ v, p.bindings.Denotes l v ∧ 0 ≤ v ∧ v ≤ Word.largest ∧ r.value = some (Int32.ofInt v) := by
  obtain ⟨value, t⟩ := r
  cases value with
  | none =>
      obtain ⟨hnone, -⟩ := Scope.resolve_eq_none_iff.mp h
      contradiction
  | some w =>
      obtain ⟨m, v, hm, hsays, h0, h1, rfl⟩ := Scope.resolve_eq_some_iff.mp h
      rw [hb] at hm hsays
      exact ⟨v, ⟨t, m, hm, hsays⟩, h0, h1, rfl⟩

/-- What settles with all names in sight is what the emission stands for. -/
theorem means_of_settle (hb : d.scope.bindings = p.bindings) {e : Emission} {q : Placed}
    {w : Word} {t : List String} (hh : p.Holds e q) (h : d.settle q = .ok (w, t)) :
    p.Means e (.ofOpcode q.opcode w) := by
  cases hh with
  | bare op =>
      cases h
      exact .bare op
  | pending op operand =>
      obtain ⟨r, hr, h⟩ := Except.bind_eq_ok_iff.mp h
      obtain ⟨v, hv, h0, h1, hvalue⟩ := denotes_of_resolve hb hr
      rw [hvalue] at h
      obtain ⟨⟨⟩, ht, h⟩ := Except.bind_eq_ok_iff.mp h
      cases h
      exact .withOperand hv h0 h1 ((checkTarget_eq_ok_iff h0 h1).mp ht)
  | resolved hv h0 h1 ht =>
      cases h
      exact .withOperand (SourceProgram.denotes_of_early p.extends_early hv) h0 h1 ht

/-- An emission that stands for an instruction settles to it, whether the
first pass left it pending or not. -/
theorem settle_of_means (hb : d.scope.bindings = p.bindings) {e : Emission} {q : Placed}
    {i : Instruction} (hh : p.Holds e q) (h : p.Means e i) :
    ∃ w t, d.settle q = .ok (w, t) ∧ Instruction.ofOpcode q.opcode w = i ∧
      ∀ name ∈ t, p.Readable name := by
  cases hh with
  | bare op =>
      cases h with
      | bare => exact ⟨0, [], rfl, rfl, fun _ hn => absurd hn List.not_mem_nil⟩
  | pending op operand =>
      cases h with
      | @withOperand _ _ v hv h0 h1 ht =>
          obtain ⟨t, hr, hreadable⟩ := resolve_of_denotes hb hv h0 h1 operand.span
          refine ⟨Int32.ofInt v, t, ?_, rfl, hreadable⟩
          have htarget : checkTarget op (Int32.ofInt v) operand.span = .ok () :=
            (checkTarget_eq_ok_iff h0 h1).mpr ht
          rw [settle]
          simp only [hr, bind, Except.bind, Option.getD_some, htarget]
          rfl
  | @resolved op operand v hv h0 h1 ht =>
      cases h with
      | withOperand hv' =>
          have hfinal := SourceProgram.denotes_of_early p.extends_early hv
          rw [hv'.unique hfinal]
          exact ⟨_, [], rfl, rfl, fun _ hn => absurd hn List.not_mem_nil⟩

/-! ## All instructions -/

/-- Emissions that all stand for instructions are emitted as those, and no
variable is remembered that could not be followed. -/
theorem emit_of_means {es : List Emission} {qs : List Placed} {is : List Instruction}
    (hb : d.scope.bindings = p.bindings) (hh : List.Forall₂ p.Holds es qs)
    (hm : List.Forall₂ p.Means es is) (hreadable : ∀ name ∈ d.referenced, p.Readable name) :
    ∃ d', d.emit qs = .ok (is.flatMap Instruction.encode, d') ∧ d'.scope = d.scope ∧
      ∀ name ∈ d'.referenced, p.Readable name := by
  induction hh generalizing d is with
  | nil =>
      cases hm
      exact ⟨d, rfl, rfl, hreadable⟩
  | cons hq _ ih =>
      cases hm with
      | cons hi hrest =>
          obtain ⟨w, t, hsettle, rfl, ht⟩ := settle_of_means hb hq hi
          have hreadable₁ : ∀ name ∈ (d.remember t).referenced, p.Readable name := by
            intro name hn
            rcases mem_remember.mp hn with hn | hn
            · exact hreadable name hn
            · exact ht name hn
          obtain ⟨d', hemit, hscope, hd'⟩ := ih (d := d.remember t) hb hrest hreadable₁
          refine ⟨d', ?_, hscope, hd'⟩
          rw [emit]
          simp only [hsettle, bind, Except.bind, hemit]
          rfl

/-- Where emitting succeeds, all emissions stand for instructions. -/
theorem means_of_emit {es : List Emission} {qs : List Placed} {bytes : List Byte}
    (hb : d.scope.bindings = p.bindings) (hh : List.Forall₂ p.Holds es qs)
    (h : d.emit qs = .ok (bytes, d')) : ∃ is, List.Forall₂ p.Means es is := by
  induction hh generalizing d bytes with
  | nil => exact ⟨[], .nil⟩
  | cons hq _ ih =>
      obtain ⟨⟨w, t⟩, hsettle, h⟩ := Except.bind_eq_ok_iff.mp h
      obtain ⟨⟨rest, d₁⟩, hemit, h⟩ := Except.bind_eq_ok_iff.mp h
      cases h
      obtain ⟨is, his⟩ := ih (d := d.remember t) hb hemit
      exact ⟨_ :: is, .cons (means_of_settle hb hq hsettle) his⟩

/-! ## Variables -/

/-- A variable that an emission goes through can be followed as far as the
emission. -/
theorem readable_of_visits {e : Emission} {i : Instruction} {name : String}
    (hv : p.Visits e name) (hm : p.Means e i) : p.Readable name := by
  obtain ⟨operand, s, last, he, hs, hn⟩ := hv
  cases hm with
  | bare op => contradiction
  | @withOperand op operand' v hd h0 h1 ht =>
      cases he
      obtain ⟨t, m, hm, hsays⟩ := hd
      obtain ⟨t', ht'⟩ := (hs.mono p.extends_early).exists_end_of_mem hm hsays.isLast hn
      exact ⟨hs.isSome_of_mem hn, v, ⟨t', m, ht', hsays⟩, h0, h1⟩

/-- Variables that can all be read have values. -/
theorem valuesOf_ok (hb : d.scope.bindings = p.bindings) {names : List String}
    (h : ∀ name ∈ names, p.Readable name) : ∃ values, d.valuesOf names = .ok values := by
  induction names with
  | nil => exact ⟨.empty, rfl⟩
  | cons name names ih =>
      obtain ⟨-, v, hv, h0, h1⟩ := h name List.mem_cons_self
      obtain ⟨t, hr, -⟩ := resolve_of_denotes hb hv h0 h1 ⟨0, 0⟩
      obtain ⟨values, hvalues⟩ := ih fun x hx => h x (List.mem_cons_of_mem name hx)
      refine ⟨values.insert name (Int32.ofInt v), ?_⟩
      rw [valuesOf]
      simp only [hr, bind, Except.bind, hvalues]
      rfl

/-- Only the variables that were asked for get a value. -/
theorem mem_of_valuesOf {names : List String} {values : NameTable Word}
    (h : d.valuesOf names = .ok values) {name : String} (hn : (values.find? name).isSome) :
    name ∈ names := by
  induction names generalizing values with
  | nil =>
      cases h
      contradiction
  | cons first names ih =>
      obtain ⟨r, -, h⟩ := Except.bind_eq_ok_iff.mp h
      obtain ⟨rest, hrest, h⟩ := Except.bind_eq_ok_iff.mp h
      cases h
      rw [NameTable.find?_insert] at hn
      by_cases heq : first = name
      · exact heq ▸ List.mem_cons_self
      · rw [if_neg heq] at hn
        exact List.mem_cons_of_mem _ (ih hrest hn)

/-! ## Assemblies -/

/-- The labels of the symbols are those of the draft, with their offsets. -/
theorem find?_labelOffsets (d : Draft) (name : String) :
    d.labelOffsets.find? name = (d.labels.find? name).map (·.offset) :=
  NameTable.find?_ofList_map d.labels (·.offset) name

end Draft

/-- What an assembly holds of its program. -/
structure Assembles (p : SourceProgram) (is : List Instruction) (a : Assembly) : Prop where
  sound : p.LabelsSound
  fits : p.size ≤ offsetLimit
  means : List.Forall₂ p.Means p.emissions is
  image : a.image = Instruction.image is
  labels : ∀ name, a.symbols.labels.find? name = (p.label? name).map Draft.offsetAddress
  values : ∀ name, (a.symbols.values.find? name).isSome → p.Readable name

namespace Draft

variable {d : Draft} {p : SourceProgram}

/-- The variables that the first pass went through stand for numbers. -/
theorem Reflects.readable (hr : d.Reflects p) {is : List Instruction}
    (hm : List.Forall₂ p.Means p.emissions is) : ∀ name ∈ d.referenced, p.Readable name := by
  intro name hn
  obtain ⟨e, he, hv⟩ := hr.referenced name hn
  obtain ⟨i, hi⟩ := SourceProgram.exists_means_iff.mp ⟨is, hm⟩ e he
  exact readable_of_visits hv hi

/-- A draft is finished if no label is open, it fits and all that is left has
a value. -/
theorem finish_eq_ok_iff {a : Assembly} :
    d.finish = .ok a ↔
      d.openLabel = none ∧ d.size ≤ offsetLimit ∧
        ∃ bytes d' values, d.emit d.placed.toList = .ok (bytes, d') ∧
          d'.valuesOf d'.referenced = .ok values ∧
          a = { image := bytes ++ List.replicate (offsetLimit - bytes.length) 0
                symbols := { labels := d'.labelOffsets, values } } := by
  unfold finish
  cases hopen : d.openLabel with
  | some label => simp
  | none =>
      rcases Nat.lt_or_ge offsetLimit d.size with hlarge | hfits
      · simp [hlarge, Nat.not_le.mpr hlarge]
      · simp only [gt_iff_lt, if_neg (Nat.not_lt.mpr hfits), Except.bind_eq_ok_iff,
          Except.pure_eq_ok_iff, Prod.exists, hfits, true_and]
        exact exists₂_congr fun bytes d' => by simp [eq_comm]

/-- The second pass assembles the program that the first pass has taken in. -/
theorem Reflects.assembles (hr : d.Reflects p) {a : Assembly} (h : d.finish = .ok a) :
    ∃ is, Assembles p is a := by
  obtain ⟨hopen, hsize, bytes, d', values, hemit, hvalues, rfl⟩ := finish_eq_ok_iff.mp h
  have hfits : p.size ≤ offsetLimit := hr.size ▸ hsize
  have hb := hr.bindings_eq hfits
  obtain ⟨is, his⟩ := means_of_emit hb hr.placed hemit
  obtain ⟨d₁, hemit₁, hscope, hreadable⟩ := emit_of_means hb hr.placed his (hr.readable his)
  rw [hemit₁] at hemit
  cases hemit
  refine ⟨is, ⟨hr.labels.distinct, hr.unblocked, ?_⟩, hfits, his, rfl, fun name => ?_,
    fun name hn => hreadable name (mem_of_valuesOf hvalues hn)⟩
  · rw [← hr.openLabel, hopen]
    rfl
  · have hlabels : d'.labels = d.labels := Option.some.inj (congrArg Scope.labels hscope)
    show d'.labelOffsets.find? name = _
    rw [find?_labelOffsets, hlabels]
    exact hr.labels.find? name

/-- A program whose labels are all placed, that fits and whose emissions all
stand for instructions passes the second pass. -/
theorem Reflects.finish_ok (hr : d.Reflects p) (hclosed : p.waitingAfter none = none)
    (hfits : p.size ≤ offsetLimit) {is : List Instruction}
    (hm : List.Forall₂ p.Means p.emissions is) : ∃ a, d.finish = .ok a := by
  obtain ⟨d', hemit, hscope, hd'⟩ :=
    emit_of_means (hr.bindings_eq hfits) hr.placed hm (hr.readable hm)
  have hb : d'.scope.bindings = p.bindings := by
    rw [hscope]
    exact hr.bindings_eq hfits
  obtain ⟨values, hvalues⟩ := valuesOf_ok hb hd'
  have hopen : d.openLabel = none := by
    rw [← hr.openLabel] at hclosed
    exact Option.map_eq_none_iff.mp hclosed
  have hsize : d.size ≤ offsetLimit := by
    rw [hr.size]
    exact hfits
  exact ⟨_, finish_eq_ok_iff.mpr ⟨hopen, hsize, _, d', values, hemit, hvalues, rfl⟩⟩

end Draft

/-! ## Whole sources -/

variable {source : String} {p : SourceProgram} {is : List Instruction} {a : Assembly}

/-- The instructions of an assembly fit into the address space of branches. -/
theorem Assembles.length_le (h : Assembles p is a) :
    (is.flatMap Instruction.encode).length ≤ offsetLimit := by
  rw [SourceProgram.length_flatMap_encode h.means]
  exact h.fits

/-- An assembly, byte by byte: every instruction is its operation code and, if
it takes one, the digits of its operand; zeros fill the rest. -/
theorem Assembles.image_bytes (h : Assembles p is a) :
    a.image =
      (is.flatMap fun i => i.opcode.byte ::
        if i.opcode.hasOperand then littleEndian i.operand.toAddress.toNat else []) ++
          List.replicate (offsetLimit - p.size) 0 := by
  rw [h.image, Instruction.image, SourceProgram.length_flatMap_encode h.means,
    funext Instruction.encode_eq_littleEndian]
  rfl

/-- What is assembled holds a program whose emissions all stand for
instructions. -/
theorem assembles_of_assemble (h : (assemble source).value = .ok a) :
    ∃ p is, SourceProgram.ofSource? source = some p ∧ Assembles p is a := by
  obtain ⟨d, hd, hfinish⟩ := Except.bind_eq_ok_iff.mp h
  obtain ⟨p, hp, hr⟩ := Draft.reflects_nil.ingestAll hd
  obtain ⟨is, his⟩ := hr.assembles hfinish
  exact ⟨p, is, hp, his⟩

/-- Every program is assembled whose labels can be placed, that fits and whose
emissions all stand for instructions. -/
theorem assemble_of_means (hp : SourceProgram.ofSource? source = some p) (hl : p.LabelsSound)
    (hfits : p.size ≤ offsetLimit) (hm : List.Forall₂ p.Means p.emissions is) :
    ∃ a, (assemble source).value = .ok a ∧ Assembles p is a := by
  have hmeans := SourceProgram.exists_means_iff.mp ⟨is, hm⟩
  obtain ⟨d, hd⟩ := Draft.reflects_nil.ingestAll_ok hp hl.distinct hl.unblocked hmeans
  obtain ⟨q, hq, hr⟩ := Draft.reflects_nil.ingestAll hd
  obtain rfl : p = q := Option.some.inj (hp.symm.trans hq)
  obtain ⟨a, hfinish⟩ := hr.finish_ok hl.closed hfits hm
  obtain ⟨is', his'⟩ := hr.assembles hfinish
  obtain rfl : is = is' := SourceProgram.means_list_unique hm his'.means
  exact ⟨a, Except.bind_eq_ok_iff.mpr ⟨d, hd, hfinish⟩, his'⟩

end StackRisc
