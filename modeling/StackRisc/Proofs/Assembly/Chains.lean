import StackRisc.Proofs.Assembly.SecondPass

/-!
# StackRisc.Proofs.Assembly.Chains

How chains of references end.  A chain goes from a name to the operand that
the name stands for, and on from there; it ends in a number, at a name that
nothing is known of, or at the first variable that it comes back to:

* `Scope.Follows` — following an operand with nothing to stop it but the
  variables that were visited;
* `Scope.follows_iff` — this always comes to an end, and the bound that
  `Scope.resolve` puts on its steps is never what ends it;
* `Scope.Ends` — the ways in which a chain can end;
* `resolve_classifies` — every chain ends in exactly one of them, and that
  decides the result.
-/

namespace StackRisc

/-! ## Chains with the places of their operands -/

namespace Scope

/-- An operand leads to another one through some variables, in order. -/
inductive Leads (s : Scope) : Operand → List String → Operand → Prop where
  | refl (o : Operand) : Leads s o [] o
  | step {name : String} {span : Span} {definition : VariableDefinition} {last : Operand}
      {through : List String} :
      s.definitions.find? name = some definition →
        Leads s ⟨definition.literal, definition.span⟩ through last →
          Leads s ⟨.reference name, span⟩ (name :: through) last

variable {s : Scope} {o m m' : Operand} {t t' : List String} {name : String} {span : Span}

theorem Leads.bindings (h : s.Leads o t m) : s.bindings.Leads o.literal t m.literal := by
  induction h with
  | refl o => exact .refl _
  | step hfind _ ih =>
      exact .step (Option.map_eq_some_iff.mpr ⟨_, hfind, rfl⟩) ih

/-- A chain from an operand that is no variable stays there. -/
theorem Leads.eq_of_isLast (h : s.Leads o t m) (ho : s.bindings.IsLast o.literal) :
    t = [] ∧ m = o := by
  cases h with
  | refl => exact ⟨rfl, rfl⟩
  | step hfind _ =>
      rw [find?_of_definition?_eq_none ho] at hfind
      contradiction

/-- Of two chains from one operand one goes on where the other stops. -/
theorem Leads.connected (h : s.Leads o t m) (h' : s.Leads o t' m') :
    (∃ u, t' = t ++ u ∧ s.Leads m u m') ∨ ∃ u, t = t' ++ u ∧ s.Leads m' u m := by
  induction h generalizing t' with
  | refl o => exact .inl ⟨t', rfl, h'⟩
  | @step name span definition last through hfind hrest ih =>
      cases h' with
      | refl => exact .inr ⟨_, rfl, .step hfind hrest⟩
      | step hfind' hrest' =>
          rw [hfind, Option.some.injEq] at hfind'
          subst hfind'
          rcases ih hrest' with ⟨u, rfl, hu⟩ | ⟨u, rfl, hu⟩
          · exact .inl ⟨u, rfl, hu⟩
          · exact .inr ⟨u, rfl, hu⟩

/-- A chain that goes on from a variable goes through it. -/
theorem Leads.eq_nil_or_mem (h : s.Leads ⟨.reference name, span⟩ t m) :
    (t = [] ∧ m = ⟨.reference name, span⟩) ∨ name ∈ t := by
  cases h with
  | refl => exact .inl ⟨rfl, rfl⟩
  | step => exact .inr List.mem_cons_self

/-! ## Following without a bound -/

/-- Following an operand with nothing to stop it but the variables that were
visited. -/
inductive Follows (s : Scope) : List String → Operand → Except AssemblyError Resolution → Prop where
  | last {visited : List String} {o : Operand} :
      s.bindings.IsLast o.literal →
        Follows s visited o ((s.lastValue o.span o.literal).map (⟨·, []⟩))
  | revisit {visited : List String} {name : String} {span : Span}
      {definition : VariableDefinition} :
      s.definitions.find? name = some definition → name ∈ visited →
        Follows s visited ⟨.reference name, span⟩ (.error (.circular name span))
  | step {visited : List String} {name : String} {span : Span}
      {definition : VariableDefinition} {r : Except AssemblyError Resolution} :
      s.definitions.find? name = some definition → name ∉ visited →
        Follows s (name :: visited) ⟨definition.literal, definition.span⟩ r →
          Follows s visited ⟨.reference name, span⟩
            (r.map fun r => ⟨r.value, name :: r.through⟩)

/-- A chain of names has one outcome. -/
theorem Follows.unique {visited : List String} {r r' : Except AssemblyError Resolution}
    (h : s.Follows visited o r) (h' : s.Follows visited o r') : r = r' := by
  induction h generalizing r' with
  | last hlast =>
      cases h' with
      | last => rfl
      | revisit hfind | step hfind =>
          rw [find?_of_definition?_eq_none hlast] at hfind
          contradiction
  | revisit hfind hmem =>
      cases h' with
      | last hlast =>
          rw [find?_of_definition?_eq_none hlast] at hfind
          contradiction
      | revisit => rfl
      | step _ hnot => contradiction
  | step hfind hnot _ ih =>
      cases h' with
      | last hlast =>
          rw [find?_of_definition?_eq_none hlast] at hfind
          contradiction
      | revisit _ hmem => contradiction
      | step hfind' _ hrest' =>
          rw [hfind, Option.some.injEq] at hfind'
          subst hfind'
          rw [ih hrest']

/-- As long as there are steps for every variable that was not visited, the
bound on them is not reached. -/
theorem follows_resolveFrom {fuel : Nat} {visited : List String} (hd : visited.Nodup)
    (hdefined : ∀ name ∈ visited, (s.definitions.find? name).isSome)
    (hfuel : s.definitions.size ≤ fuel + visited.length) (o : Operand) :
    s.Follows visited o (s.resolveFrom fuel visited o.literal o.span) := by
  induction fuel generalizing visited o with
  | zero =>
      by_cases hlast : s.bindings.IsLast o.literal
      · rw [resolveFrom_of_isLast hlast]
        exact .last hlast
      · obtain ⟨literal, span⟩ := o
        obtain ⟨name, definition, rfl, hfind⟩ := exists_of_not_isLast hlast
        by_cases hmem : name ∈ visited
        · simp only [resolveFrom, hfind, if_pos hmem]
          exact .revisit hfind hmem
        · -- all variables were visited, and this is one more
          have hle := NameTable.length_le_size (List.nodup_cons.mpr ⟨hmem, hd⟩)
            (List.forall_mem_cons.mpr ⟨by rw [hfind]; rfl, hdefined⟩)
          rw [List.length_cons] at hle
          omega
  | succ fuel ih =>
      by_cases hlast : s.bindings.IsLast o.literal
      · rw [resolveFrom_of_isLast hlast]
        exact .last hlast
      · obtain ⟨literal, span⟩ := o
        obtain ⟨name, definition, rfl, hfind⟩ := exists_of_not_isLast hlast
        rw [resolveFrom_of_find? hfind]
        by_cases hmem : name ∈ visited
        · rw [if_pos hmem]
          exact .revisit hfind hmem
        · rw [if_neg hmem]
          refine .step hfind hmem (ih (List.nodup_cons.mpr ⟨hmem, hd⟩) ?_ ?_ _)
          · exact List.forall_mem_cons.mpr ⟨by rw [hfind]; rfl, hdefined⟩
          · rw [List.length_cons]
            omega

/-- Following an operand always comes to an end, with the result of
`Scope.resolve`. -/
theorem follows_iff {r : Except AssemblyError Resolution} :
    s.Follows [] o r ↔ r = s.resolve o.literal o.span := by
  have h : s.Follows [] o (s.resolve o.literal o.span) :=
    follows_resolveFrom .nil (fun _ hn => absurd hn List.not_mem_nil) (Nat.le_refl _) o
  exact ⟨fun h' => h'.unique h, fun heq => heq ▸ h⟩

/-! ## Ends of chains -/

/-- What a chain of references comes to, and where that is written. -/
inductive Fate where
  | number (value : Int) (span : Span)
  | unknown (name : String) (span : Span)
  | cycle (name : String) (span : Span)
  deriving DecidableEq, Repr

/-- The result for a chain that goes through some variables. -/
def Fate.result (through : List String) : Fate → Except AssemblyError Resolution
  | .number v span =>
    if 0 ≤ v ∧ v ≤ Word.largest then .ok ⟨some (Int32.ofInt v), through⟩
    else .error (.outOfRange v .word span)
  | .unknown name span => .error (.unresolved name span)
  | .cycle name span => .error (.circular name span)

/-- The ways in which the chain of an operand can end when all labels are in
sight. -/
inductive Ends (s : Scope) (labels : NameTable LabelDefinition) (o : Operand) :
    List String → Fate → Prop where
  | number {through : List String} {last : Operand} {v : Int} :
      s.Leads o through last → last.literal.number? = some v →
        Ends s labels o through (.number v last.span)
  | label {through : List String} {name : String} {span : Span} {label : LabelDefinition} :
      s.Leads o through ⟨.reference name, span⟩ → s.definitions.find? name = none →
        labels.find? name = some label → Ends s labels o through (.number label.offset.toNat span)
  | unknown {through : List String} {name : String} {span : Span} :
      s.Leads o through ⟨.reference name, span⟩ → s.definitions.find? name = none →
        labels.find? name = none → Ends s labels o through (.unknown name span)
  /-- The first variable that the chain comes back to. -/
  | cycle {through : List String} {name : String} {span : Span} :
      s.Leads o through ⟨.reference name, span⟩ → through.Nodup → name ∈ through →
        Ends s labels o through (.cycle name span)

variable {labels : NameTable LabelDefinition} {fate fate' : Fate}

/-! ## Every chain ends in one way -/

/-- A chain goes through different variables up to an operand that is no
variable, or one of those. -/
structure Stops (s : Scope) (o : Operand) (through : List String) (last : Operand) : Prop where
  leads : s.Leads o through last
  nodup : through.Nodup
  stop : s.bindings.IsLast last.literal ∨
    ∃ name ∈ through, last.literal = .reference name

/-- Nothing new comes after the end of a chain. -/
theorem Stops.eq_of_leads (h : s.Stops o t m) {u : List String} (hu : s.Leads m u m')
    (hd : (t ++ u).Nodup) : u = [] ∧ m' = m := by
  obtain ⟨literal, span⟩ := m
  rcases h.stop with hlast | ⟨name, hmem, hname⟩
  · exact hu.eq_of_isLast hlast
  · obtain rfl : literal = .reference name := hname
    rcases hu.eq_nil_or_mem with hnil | hagain
    · exact hnil
    · exact absurd rfl ((List.nodup_append.mp hd).2.2 name hmem name hagain)

/-- A chain of names stops in one place. -/
theorem Stops.unique (h : s.Stops o t m) (h' : s.Stops o t' m') : t = t' ∧ m = m' := by
  rcases h.leads.connected h'.leads with ⟨u, rfl, hu⟩ | ⟨u, rfl, hu⟩
  · obtain ⟨rfl, rfl⟩ := h.eq_of_leads hu h'.nodup
    exact ⟨(List.append_nil t).symm, rfl⟩
  · obtain ⟨rfl, rfl⟩ := h'.eq_of_leads hu h.nodup
    exact ⟨List.append_nil t', rfl⟩

/-- What a chain comes to at its last operand. -/
def fateOf (labels : NameTable LabelDefinition) (through : List String) (last : Operand) : Fate :=
  match last.literal with
  | .hex v | .decimal v => .number v last.span
  | .reference name =>
    if name ∈ through then .cycle name last.span
    else
      match labels.find? name with
      | some label => .number label.offset.toNat last.span
      | none => .unknown name last.span

/-- A name that is no variable is none that a chain goes through. -/
theorem Leads.not_mem_of_find? (h : s.Leads o t m) (hfind : s.definitions.find? name = none) :
    name ∉ t := by
  intro hmem
  have hsome := h.bindings.isSome_of_mem hmem
  rw [Scope.bindings, Option.isSome_map, hfind] at hsome
  contradiction

/-- The fate of a chain is decided where it stops. -/
theorem ends_iff :
    s.Ends labels o t fate ↔ ∃ m, s.Stops o t m ∧ fate = fateOf labels t m := by
  constructor
  · intro h
    cases h with
    | @number last v hleads hv =>
        obtain ⟨literal, span⟩ := last
        cases literal with
        | hex n | decimal n =>
            cases hv
            exact ⟨_, ⟨hleads, hleads.bindings.nodup trivial, .inl trivial⟩, rfl⟩
        | reference name => contradiction
    | @label name span label hleads hfind hl =>
        have hlast : s.bindings.IsLast (.reference name) := Option.map_eq_none_iff.mpr hfind
        refine ⟨_, ⟨hleads, hleads.bindings.nodup hlast, .inl hlast⟩, ?_⟩
        simp only [fateOf, if_neg (hleads.not_mem_of_find? hfind), hl]
    | @unknown name span hleads hfind hl =>
        have hlast : s.bindings.IsLast (.reference name) := Option.map_eq_none_iff.mpr hfind
        refine ⟨_, ⟨hleads, hleads.bindings.nodup hlast, .inl hlast⟩, ?_⟩
        simp only [fateOf, if_neg (hleads.not_mem_of_find? hfind), hl]
    | @cycle name span hleads hd hmem =>
        refine ⟨_, ⟨hleads, hd, .inr ⟨name, hmem, rfl⟩⟩, ?_⟩
        simp only [fateOf, if_pos hmem]
  · rintro ⟨⟨literal, span⟩, h, rfl⟩
    cases literal with
    | hex n => exact .number h.leads rfl
    | decimal n => exact .number h.leads rfl
    | reference name =>
        by_cases hmem : name ∈ t
        · simp only [fateOf, if_pos hmem]
          exact .cycle h.leads h.nodup hmem
        · have hlast : s.bindings.IsLast (.reference name) := by
            rcases h.stop with hlast | ⟨other, hother, hname⟩
            · exact hlast
            · cases hname
              contradiction
          have hfind := find?_of_definition?_eq_none hlast
          simp only [fateOf, if_neg hmem]
          cases hl : labels.find? name with
          | none => exact .unknown h.leads hfind hl
          | some label => exact .label h.leads hfind hl

/-- A chain of names has one fate. -/
theorem Ends.unique (h : s.Ends labels o t fate) (h' : s.Ends labels o t' fate') :
    t = t' ∧ fate = fate' := by
  obtain ⟨m, hm, rfl⟩ := ends_iff.mp h
  obtain ⟨m', hm', rfl⟩ := ends_iff.mp h'
  obtain ⟨rfl, rfl⟩ := hm.unique hm'
  exact ⟨rfl, rfl⟩

/-! ## The end of a chain decides the result -/

/-- Following an operand stops where its chain does, or at a variable that
was visited before. -/
theorem Follows.exists_stop {visited : List String} {r : Except AssemblyError Resolution}
    (h : s.Follows visited o r) :
    ∃ t m, s.Leads o t m ∧ t.Nodup ∧ (∀ name ∈ t, name ∉ visited) ∧
      ((s.bindings.IsLast m.literal ∧ r = (s.lastValue m.span m.literal).map (⟨·, t⟩)) ∨
        ∃ name, m.literal = .reference name ∧ (name ∈ t ∨ name ∈ visited) ∧
          r = .error (.circular name m.span)) := by
  induction h with
  | @last visited o hlast =>
      exact ⟨[], o, .refl o, .nil, fun _ hn => absurd hn List.not_mem_nil, .inl ⟨hlast, rfl⟩⟩
  | revisit _ hmem =>
      exact ⟨[], _, .refl _, .nil, fun _ hn => absurd hn List.not_mem_nil,
        .inr ⟨_, rfl, .inr hmem, rfl⟩⟩
  | @step visited name span definition r hfind hnot _ ih =>
      obtain ⟨t, m, hleads, hd, hfresh, hstop⟩ := ih
      have hname : name ∉ t := fun hmem => hfresh name hmem List.mem_cons_self
      refine ⟨name :: t, m, .step hfind hleads, List.nodup_cons.mpr ⟨hname, hd⟩,
        List.forall_mem_cons.mpr ⟨hnot, fun x hx hv => hfresh x hx (List.mem_cons_of_mem _ hv)⟩, ?_⟩
      rcases hstop with ⟨hlast, rfl⟩ | ⟨other, hother, hmem, rfl⟩
      · refine .inl ⟨hlast, ?_⟩
        cases s.lastValue m.span m.literal <;> rfl
      · refine .inr ⟨other, hother, ?_, rfl⟩
        simpa [or_assoc, or_comm, or_left_comm] using hmem

/-- At an operand that is no variable the value is that of the fate. -/
theorem lastValue_eq_result (hl : s.labels = some labels) (hlast : s.bindings.IsLast m.literal)
    (hnot : ∀ name, m.literal = .reference name → name ∉ t) :
    (s.lastValue m.span m.literal).map (⟨·, t⟩) = (fateOf labels t m).result t := by
  obtain ⟨literal, span⟩ := m
  cases literal with
  | hex n | decimal n =>
      simp only [lastValue, fateOf, Fate.result, checkRange]
      split <;> rfl
  | reference name =>
      simp only [lastValue, hl, fateOf, if_neg (hnot name rfl)]
      cases labels.find? name with
      | none => rfl
      | some label =>
          simp only [checkRange, Fate.result]
          split <;> rfl

/-- The chain of an operand ends, and its end decides the result. -/
theorem exists_ends (hl : s.labels = some labels) (o : Operand) :
    ∃ t fate, s.Ends labels o t fate ∧ s.resolve o.literal o.span = fate.result t := by
  obtain ⟨t, m, hleads, hd, -, ⟨hlast, hr⟩ | ⟨name, hname, hmem, hr⟩⟩ :=
    (follows_iff.mpr rfl : s.Follows [] o _).exists_stop
  · refine ⟨t, fateOf labels t m, ends_iff.mpr ⟨m, ⟨hleads, hd, .inl hlast⟩, rfl⟩, ?_⟩
    rw [hr]
    refine lastValue_eq_result hl hlast fun name hname => ?_
    rw [hname] at hlast
    exact hleads.not_mem_of_find? (find?_of_definition?_eq_none hlast)
  · have hmem' : name ∈ t := hmem.resolve_right List.not_mem_nil
    obtain ⟨literal, span⟩ := m
    obtain rfl : literal = .reference name := hname
    exact ⟨t, .cycle name span, .cycle hleads hd hmem', hr⟩

/-- Only a cycle is reported as circular. -/
theorem Fate.result_eq_circular_iff {fate : Fate} :
    fate.result t = .error (.circular name span) ↔ fate = .cycle name span := by
  cases fate with
  | number v other =>
      simp only [Fate.result, reduceCtorEq, iff_false]
      split <;> simp
  | unknown other _ => simp [Fate.result]
  | cycle other _ => simp [Fate.result]

/-- An operand is refused as circular exactly if its chain comes back to the
variable that is named. -/
theorem resolve_eq_circular_iff (hl : s.labels = some labels) :
    s.resolve o.literal o.span = .error (.circular name span) ↔
      ∃ t, s.Ends labels o t (.cycle name span) := by
  obtain ⟨t, fate, hends, hr⟩ := exists_ends hl o
  rw [hr, Fate.result_eq_circular_iff]
  constructor
  · rintro rfl
    exact ⟨t, hends⟩
  · rintro ⟨t', hends'⟩
    exact (hends.unique hends').2

end Scope

/-- How references are resolved.  Following an operand always ends, without
any bound on its steps.  With all labels in sight its chain ends in exactly one
way, and that alone decides the result: a number, be it written or the offset
of a label, gives its value if it is in range and is refused otherwise, a name
that nothing is known of is refused as unresolved, and the first variable that
the chain comes back to is refused as circular; no chain that ends is.  The
labels that operands of a source are resolved with have offsets in range. -/
theorem resolve_classifies :
    (∀ (s : Scope) (o : Operand) (r : Except AssemblyError Resolution),
      s.Follows [] o r ↔ r = s.resolve o.literal o.span) ∧
    (∀ (definitions : NameTable VariableDefinition) (labels : NameTable LabelDefinition)
        (o : Operand),
      let s : Scope := ⟨definitions, some labels⟩
      (∃ through fate, s.Ends labels o through fate ∧
        s.resolve o.literal o.span = fate.result through ∧
        ∀ through' fate', s.Ends labels o through' fate' →
          through' = through ∧ fate' = fate) ∧
      (∀ name span, s.resolve o.literal o.span = .error (.circular name span) ↔
        ∃ through, s.Ends labels o through (.cycle name span)) ∧
      ∀ through last, s.Leads o through last → s.bindings.IsLast last.literal →
        ∀ name span, s.resolve o.literal o.span ≠ .error (.circular name span)) ∧
    ∀ (source : String) (d : Draft),
      (Draft.ingestAll {} (SourceLine.ofSource source)).value = .ok d → d.size ≤ offsetLimit →
        ∀ name label, d.labels.find? name = some label → label.offset.toNat ≤ Word.largest := by
  refine ⟨fun s o r => Scope.follows_iff, fun definitions labels o => ⟨?_, ?_, ?_⟩, ?_⟩
  · obtain ⟨through, fate, hends, hr⟩ :=
      Scope.exists_ends (s := ⟨definitions, some labels⟩) rfl o
    refine ⟨through, fate, hends, hr, fun through' fate' hends' => ?_⟩
    obtain ⟨rfl, rfl⟩ := hends.unique hends'
    exact ⟨rfl, rfl⟩
  · exact fun name span => Scope.resolve_eq_circular_iff rfl
  · intro through last hleads hlast name span h
    obtain ⟨through', hends⟩ := (Scope.resolve_eq_circular_iff rfl).mp h
    cases hends with
    | cycle hagain hd hmem =>
        have hstops := Scope.Stops.mk hagain hd (.inr ⟨name, hmem, rfl⟩)
        obtain ⟨rfl, rfl⟩ := hstops.unique ⟨hleads, hleads.bindings.nodup hlast, .inl hlast⟩
        exact hagain.not_mem_of_find? (Scope.find?_of_definition?_eq_none hlast) hmem
  · intro source d hd hsize name label hfind
    obtain ⟨p, -, hr⟩ := Draft.reflects_nil.ingestAll hd
    rw [List.nil_append] at hr
    have hle := hr.offset_le (hr.size ▸ hsize) hfind
    exact Nat.le_trans hle (by decide)

end StackRisc
