import StackRisc.Proofs.Assembly.Program
import StackRisc.Proofs.Except
import StackRisc.Proofs.NameTable

/-!
# StackRisc.Proofs.Assembly.Resolution

Following an operand against what names stand for.  A chain of variables
that ends goes through each variable once, so the bound that
`Scope.resolve` puts on its steps cuts no such chain off:

* `Scope.resolve_eq_some_iff` — a value is exactly a number in range at the
  end of a chain;
* `Scope.resolve_eq_none_iff` — an operand waits exactly where its chain
  leaves the variables and no label is in sight;
* `Scope.resolve_ok_of_denotes` — a scope with fewer names never refuses
  what more names give a value.
-/

namespace StackRisc

namespace Bindings

variable {b b' : Bindings} {l m m' : Literal} {t t' : List String} {v v' : Int}

/-! ## Chains -/

/-- An operand at which a chain of variables ends. -/
def IsLast (b : Bindings) : Literal → Prop
  | .hex _ | .decimal _ => True
  | .reference name => b.definition? name = none

/-- A chain ends where a literal says a number. -/
theorem Says.isLast (h : b.Says m v) : b.IsLast m := by
  cases m with
  | hex n => trivial
  | decimal n => trivial
  | reference name => exact h.1

/-- A literal says one number. -/
theorem Says.unique (h : b.Says m v) (h' : b.Says m v') : v = v' := by
  cases m with
  | hex n => exact h.symm.trans h'
  | decimal n => exact h.symm.trans h'
  | reference name =>
      obtain ⟨-, n, hn, hv⟩ := h
      obtain ⟨-, n', hn', hv'⟩ := h'
      rw [hn, Option.some.injEq] at hn'
      rw [← hv, ← hv', hn']

/-- Two chains from one operand to their ends are the same chain. -/
theorem Leads.unique (h : b.Leads l t m) (hm : b.IsLast m) (h' : b.Leads l t' m')
    (hm' : b.IsLast m') : t = t' ∧ m = m' := by
  induction h generalizing t' with
  | refl l =>
      cases h' with
      | refl => exact ⟨rfl, rfl⟩
      | step hn _ =>
          have hnone : b.definition? _ = none := hm
          rw [hnone] at hn
          contradiction
  | step hn _ ih =>
      cases h' with
      | refl =>
          have hnone : b.definition? _ = none := hm'
          rw [hnone] at hn
          contradiction
      | step hn' hrest' =>
          rw [hn, Option.some.injEq] at hn'
          subst hn'
          obtain ⟨ht, hlast⟩ := ih hm hrest'
          exact ⟨by rw [ht], hlast⟩

/-- The part of a chain from one of its variables on. -/
theorem Leads.exists_of_mem (h : b.Leads l t m) {name : String} (hn : name ∈ t) :
    ∃ s, b.Leads (.reference name) s m ∧ s.length ≤ t.length := by
  induction h with
  | refl l => contradiction
  | step hv hrest ih =>
      rcases List.mem_cons.mp hn with rfl | hn
      · exact ⟨_, .step hv hrest, Nat.le_refl _⟩
      · obtain ⟨s, hs, hle⟩ := ih hn
        exact ⟨s, hs, Nat.le_succ_of_le hle⟩

/-- A variable on the way to the end of a chain leads to that end, too. -/
theorem Leads.exists_end_of_mem (h : b.Leads l t m) (h' : b.Leads l t' m') (hm' : b.IsLast m')
    {name : String} (hn : name ∈ t) : ∃ s, b.Leads (.reference name) s m' := by
  induction h generalizing t' with
  | refl l => contradiction
  | step hv _ ih =>
      cases h' with
      | refl =>
          have hnone : b.definition? _ = none := hm'
          rw [hnone] at hv
          contradiction
      | step hv' hrest' =>
          rcases List.mem_cons.mp hn with rfl | hn
          · exact ⟨_, .step hv' hrest'⟩
          · rw [hv, Option.some.injEq] at hv'
            exact ih (hv' ▸ hrest') hn

/-- A chain that ends goes through no variable twice. -/
theorem Leads.nodup (h : b.Leads l t m) (hm : b.IsLast m) : t.Nodup := by
  induction h with
  | refl l => exact .nil
  | @step name value last through hv hrest ih =>
      refine List.nodup_cons.mpr ⟨fun hmem => ?_, ih hm⟩
      obtain ⟨s, hs, hle⟩ := hrest.exists_of_mem hmem
      have heq := (Leads.unique (.step hv hrest) hm hs hm).1
      rw [← heq, List.length_cons] at hle
      omega

/-- Every variable of a chain is defined. -/
theorem Leads.isSome_of_mem (h : b.Leads l t m) {name : String} (hn : name ∈ t) :
    (b.definition? name).isSome := by
  induction h with
  | refl l => contradiction
  | step hv _ ih =>
      rcases List.mem_cons.mp hn with rfl | hn
      · simp [hv]
      · exact ih hn

theorem denotes_hex (b : Bindings) (n : Int) : b.Denotes (.hex n) n :=
  ⟨[], .hex n, .refl _, rfl⟩

theorem denotes_decimal (b : Bindings) (n : Int) : b.Denotes (.decimal n) n :=
  ⟨[], .decimal n, .refl _, rfl⟩

/-- An operand stands for at most one number. -/
theorem Denotes.unique (h : b.Denotes l v) (h' : b.Denotes l v') : v = v' := by
  obtain ⟨t, m, hl, hs⟩ := h
  obtain ⟨t', m', hl', hs'⟩ := h'
  obtain ⟨-, rfl⟩ := hl.unique hs.isLast hl' hs'.isLast
  exact hs.unique hs'

/-! ## More names -/

/-- All variables of some bindings, with the same operands. -/
def Extends (b' b : Bindings) : Prop :=
  ∀ name value, b.definition? name = some value → b'.definition? name = some value

/-- Chains are kept when more names are bound. -/
theorem Leads.mono (h : b.Leads l t m) (he : b'.Extends b) : b'.Leads l t m := by
  induction h with
  | refl l => exact .refl l
  | step hv _ ih => exact .step (he _ _ hv) ih

/-- With fewer variables a chain stops at its end or at a name before it. -/
theorem Leads.exists_isLast (h : b'.Leads l t m) (hm : b'.IsLast m) (he : b'.Extends b) :
    ∃ s last, b.Leads l s last ∧ b.IsLast last ∧ (last = m ∨ ∃ name, last = .reference name) := by
  induction h with
  | refl l =>
      refine ⟨[], l, .refl l, ?_, .inl rfl⟩
      cases l with
      | hex n => trivial
      | decimal n => trivial
      | reference name =>
          cases hv : b.definition? name with
          | none => exact hv
          | some value =>
              have hnone : b'.definition? name = none := hm
              rw [he name value hv] at hnone
              contradiction
  | @step name value last through hv hrest ih =>
      cases hb : b.definition? name with
      | none => exact ⟨[], .reference name, .refl _, hb, .inr ⟨name, rfl⟩⟩
      | some value' =>
          have heq := he name value' hb
          rw [hv, Option.some.injEq] at heq
          subst heq
          obtain ⟨s, last', hs, hlast, hor⟩ := ih hm
          exact ⟨name :: s, last', .step hb hs, hlast, hor⟩

end Bindings

/-! ## Scopes -/

/-- The value of a number in range, and no other. -/
theorem checkRange_eq_ok_iff {v : Int} {span : Span} {w : Word} :
    checkRange v span = .ok w ↔ 0 ≤ v ∧ v ≤ Word.largest ∧ w = Int32.ofInt v := by
  unfold checkRange
  split
  · next h => simp [h, eq_comm]
  · next h =>
    simp only [reduceCtorEq, false_iff]
    exact fun ⟨h0, h1, _⟩ => h ⟨h0, h1⟩

namespace Scope

variable {s : Scope} {l m : Literal} {t : List String} {span : Span} {w : Word}

/-- What the names of a scope stand for. -/
def bindings (s : Scope) : Bindings where
  definition? name := (s.definitions.find? name).map (·.literal)
  label? name := s.labels.bind fun labels => (labels.find? name).map (·.offset.toNat)

/-- The value of an operand that is no variable. -/
def lastValue (s : Scope) (span : Span) : Literal → Except AssemblyError (Option Word)
  | .hex v | .decimal v => (checkRange v span).map some
  | .reference name =>
    match s.labels with
    | none => .ok none
    | some labels =>
      match labels.find? name with
      | some label => (checkRange label.offset.toNat span).map some
      | none => .error (.unresolved name span)

/-- A name that is bound to a literal is a variable. -/
theorem find?_of_definition? {name : String} {value : Literal}
    (h : s.bindings.definition? name = some value) :
    ∃ definition, s.definitions.find? name = some definition ∧ definition.literal = value :=
  Option.map_eq_some_iff.mp h

theorem find?_of_definition?_eq_none {name : String} (h : s.bindings.definition? name = none) :
    s.definitions.find? name = none := Option.map_eq_none_iff.mp h

/-- An operand that is no variable is settled at once. -/
theorem resolveFrom_of_isLast (h : s.bindings.IsLast l) (fuel : Nat) (visited : List String)
    (span : Span) :
    s.resolveFrom fuel visited l span = (s.lastValue span l).map (⟨·, []⟩) := by
  cases l with
  | hex v =>
      rw [resolveFrom, lastValue]
      cases checkRange v span <;> rfl
  | decimal v =>
      rw [resolveFrom, lastValue]
      cases checkRange v span <;> rfl
  | reference name =>
      rw [resolveFrom, lastValue, find?_of_definition?_eq_none h]
      cases hl : s.labels with
      | none => rfl
      | some labels =>
          simp only
          cases labels.find? name with
          | none => rfl
          | some label =>
              simp only
              cases checkRange label.offset.toNat span <;> rfl

/-- An operand that is a variable is followed, unless it was met before. -/
theorem resolveFrom_of_find? {name : String} {definition : VariableDefinition}
    (h : s.definitions.find? name = some definition) (fuel : Nat) (visited : List String)
    (span : Span) :
    s.resolveFrom (fuel + 1) visited (.reference name) span =
      if name ∈ visited then .error (.circular name span)
      else (s.resolveFrom fuel (name :: visited) definition.literal definition.span).map
        fun r => ⟨r.value, name :: r.through⟩ := by
  rw [resolveFrom]
  simp only [h]
  split
  · rfl
  · cases s.resolveFrom fuel (name :: visited) definition.literal definition.span <;> rfl

/-- With enough steps a chain of fresh variables is followed to its end. -/
theorem resolveFrom_of_leads (h : s.bindings.Leads l t m) (hm : s.bindings.IsLast m)
    (span : Span) {fuel : Nat} {visited : List String} (hf : t.length ≤ fuel)
    (hfresh : ∀ name ∈ t, name ∉ visited) :
    ∃ end', s.resolveFrom fuel visited l span = (s.lastValue end' m).map (⟨·, t⟩) := by
  induction h generalizing fuel visited span with
  | refl l => exact ⟨span, resolveFrom_of_isLast hm fuel visited span⟩
  | @step name value last through hv hrest ih =>
      obtain ⟨hnotin, -⟩ := List.nodup_cons.mp (Bindings.Leads.nodup (.step hv hrest) hm)
      obtain ⟨definition, hfind, rfl⟩ := find?_of_definition? hv
      cases fuel with
      | zero => simp at hf
      | succ fuel =>
          have hfresh' : ∀ x ∈ through, x ∉ name :: visited := by
            intro x hx hmem
            rcases List.mem_cons.mp hmem with rfl | hmem
            · exact hnotin hx
            · exact hfresh x (List.mem_cons_of_mem _ hx) hmem
          have hf' : through.length ≤ fuel := by
            rw [List.length_cons] at hf
            omega
          obtain ⟨end', heq⟩ := ih hm definition.span hf' hfresh'
          refine ⟨end', ?_⟩
          rw [resolveFrom_of_find? hfind, if_neg (hfresh name List.mem_cons_self), heq]
          cases s.lastValue end' last <;> rfl

/-- Following an operand gives the value at the end of its chain. -/
theorem resolve_of_leads (h : s.bindings.Leads l t m) (hm : s.bindings.IsLast m)
    (span : Span) :
    ∃ end', s.resolve l span = (s.lastValue end' m).map (⟨·, t⟩) := by
  refine resolveFrom_of_leads h hm span ?_ fun _ _ => List.not_mem_nil
  refine NameTable.length_le_size (h.nodup hm) fun name hn => ?_
  have hsome := h.isSome_of_mem hn
  rwa [bindings, Option.isSome_map] at hsome

/-- Where a chain goes on there is a variable. -/
theorem exists_of_not_isLast (h : ¬ s.bindings.IsLast l) :
    ∃ name definition, l = .reference name ∧ s.definitions.find? name = some definition := by
  cases l with
  | hex n => exact absurd trivial h
  | decimal n => exact absurd trivial h
  | reference name =>
      cases hfind : s.definitions.find? name with
      | none => exact absurd (Option.map_eq_none_iff.mpr hfind) h
      | some definition => exact ⟨name, definition, rfl, hfind⟩

/-- What is found was found at the end of a chain. -/
theorem leads_of_resolveFrom {fuel : Nat} {visited : List String} {r : Resolution}
    (h : s.resolveFrom fuel visited l span = .ok r) :
    ∃ m end', s.bindings.Leads l r.through m ∧ s.bindings.IsLast m ∧
      s.lastValue end' m = .ok r.value := by
  induction fuel generalizing visited l span r with
  | zero =>
      by_cases hlast : s.bindings.IsLast l
      · rw [resolveFrom_of_isLast hlast] at h
        obtain ⟨value, hv, rfl⟩ := Except.map_eq_ok_iff.mp h
        exact ⟨l, span, .refl l, hlast, hv⟩
      · obtain ⟨name, definition, rfl, hfind⟩ := exists_of_not_isLast hlast
        rw [resolveFrom] at h
        simp only [hfind, ite_self] at h
        contradiction
  | succ fuel ih =>
      by_cases hlast : s.bindings.IsLast l
      · rw [resolveFrom_of_isLast hlast] at h
        obtain ⟨value, hv, rfl⟩ := Except.map_eq_ok_iff.mp h
        exact ⟨l, span, .refl l, hlast, hv⟩
      · obtain ⟨name, definition, rfl, hfind⟩ := exists_of_not_isLast hlast
        rw [resolveFrom_of_find? hfind] at h
        by_cases hmem : name ∈ visited
        · rw [if_pos hmem] at h
          contradiction
        · rw [if_neg hmem] at h
          obtain ⟨next, hnext, rfl⟩ := Except.map_eq_ok_iff.mp h
          obtain ⟨m, end', hm, hl, hv⟩ := ih hnext
          have hname : s.bindings.definition? name = some definition.literal :=
            Option.map_eq_some_iff.mpr ⟨definition, hfind, rfl⟩
          exact ⟨m, end', .step hname hm, hl, hv⟩

/-! ## Outcomes -/

/-- At the end of a chain, a number in range is the value. -/
theorem lastValue_eq_some_iff (hm : s.bindings.IsLast m) :
    s.lastValue span m = .ok (some w) ↔
      ∃ v, s.bindings.Says m v ∧ 0 ≤ v ∧ v ≤ Word.largest ∧ w = Int32.ofInt v := by
  cases m with
  | hex n => simp [lastValue, Except.map_eq_ok_iff, checkRange_eq_ok_iff, Bindings.Says]
  | decimal n => simp [lastValue, Except.map_eq_ok_iff, checkRange_eq_ok_iff, Bindings.Says]
  | reference name =>
      have hnone : s.bindings.definition? name = none := hm
      simp only [lastValue, Bindings.Says, hnone, true_and]
      cases hl : s.labels with
      | none => simp [bindings, hl]
      | some labels =>
          cases hf : labels.find? name with
          | none => simp [bindings, hl, hf]
          | some label =>
              simp [bindings, hl, hf, Except.map_eq_ok_iff, checkRange_eq_ok_iff]

/-- A value is left open exactly for a name, while labels are open. -/
theorem lastValue_eq_none_iff :
    s.lastValue span m = .ok none ↔ s.labels = none ∧ ∃ name, m = .reference name := by
  cases m with
  | hex n => simp [lastValue, Except.map_eq_ok_iff]
  | decimal n => simp [lastValue, Except.map_eq_ok_iff]
  | reference name =>
      simp only [lastValue]
      cases hl : s.labels with
      | none => simp
      | some labels =>
          cases hf : labels.find? name with
          | none => simp [hf]
          | some label => simp [hf, Except.map_eq_ok_iff]

/-- A value is exactly a number in range at the end of a chain. -/
theorem resolve_eq_some_iff :
    s.resolve l span = .ok ⟨some w, t⟩ ↔
      ∃ m v, s.bindings.Leads l t m ∧ s.bindings.Says m v ∧ 0 ≤ v ∧ v ≤ Word.largest ∧
        w = Int32.ofInt v := by
  constructor
  · intro h
    obtain ⟨m, end', hm, hlast, hv⟩ := leads_of_resolveFrom h
    obtain ⟨v, hsays, hrange⟩ := (lastValue_eq_some_iff hlast).mp hv
    exact ⟨m, v, hm, hsays, hrange⟩
  · rintro ⟨m, v, hm, hsays, hrange⟩
    obtain ⟨end', heq⟩ := resolve_of_leads hm hsays.isLast span
    rw [heq, (lastValue_eq_some_iff hsays.isLast).mpr ⟨v, hsays, hrange⟩]
    rfl

/-- An operand waits exactly where its chain leaves the variables and no
label is in sight. -/
theorem resolve_eq_none_iff :
    s.resolve l span = .ok ⟨none, t⟩ ↔
      s.labels = none ∧
        ∃ name, s.bindings.Leads l t (.reference name) ∧ s.bindings.definition? name = none := by
  constructor
  · intro h
    obtain ⟨m, end', hm, hlast, hv⟩ := leads_of_resolveFrom h
    obtain ⟨hl, name, rfl⟩ := lastValue_eq_none_iff.mp hv
    exact ⟨hl, name, hm, hlast⟩
  · rintro ⟨hl, name, hm, hnone⟩
    obtain ⟨end', heq⟩ := resolve_of_leads hm hnone span
    rw [heq, lastValue_eq_none_iff.mpr ⟨hl, name, rfl⟩]
    rfl

/-- Without labels, what more names give a number in range is not refused:
it waits, or has that value already. -/
theorem resolve_ok_of_denotes {b : Bindings} {v : Int} (span : Span) (hl : s.labels = none)
    (he : b.Extends s.bindings) (h : b.Denotes l v) (h0 : 0 ≤ v) (h1 : v ≤ Word.largest) :
    ∃ t, s.resolve l span = .ok ⟨none, t⟩ ∨ s.resolve l span = .ok ⟨some (Int32.ofInt v), t⟩ := by
  obtain ⟨t, m, hm, hsays⟩ := h
  obtain ⟨t', m', hm', hlast, hor⟩ := hm.exists_isLast hsays.isLast he
  refine ⟨t', ?_⟩
  cases m' with
  | reference name => exact .inl (resolve_eq_none_iff.mpr ⟨hl, name, hm', hlast⟩)
  | hex n =>
      rcases hor with rfl | ⟨name, hname⟩
      · exact .inr (resolve_eq_some_iff.mpr ⟨_, v, hm', hsays, h0, h1, rfl⟩)
      · contradiction
  | decimal n =>
      rcases hor with rfl | ⟨name, hname⟩
      · exact .inr (resolve_eq_some_iff.mpr ⟨_, v, hm', hsays, h0, h1, rfl⟩)
      · contradiction

end Scope

end StackRisc
