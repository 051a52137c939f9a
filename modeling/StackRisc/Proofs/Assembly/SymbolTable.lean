import StackRisc.Proofs.Assembly.Labels
import StackRisc.Proofs.Assembly.Values

/-!
# StackRisc.Proofs.Assembly.SymbolTable

The symbols of an assembly are exactly those of its program:

* `SourceProgram.mem_labels_iff` — the labels that are placed are those that
  lines define;
* `Draft.Reflects.valuesOf_ok` — once all operands are settled, every variable
  that they lead to has a value;
* `Draft.Reflects.finish_eq_error_iff` — so the values are never the reason
  why a source is refused;
* `symbols_exact` — all of it for a source.
-/

namespace StackRisc

/-! ## Labels -/

namespace SourceProgram

/-- A line defines a label, alone or in front of an instruction. -/
def DefinesLabel (p : SourceProgram) (name : String) : Prop :=
  .label name ∈ p ∨ ∃ es, .code (some name) es ∈ p

variable {p front rest : SourceProgram} {e : SourceEntry} {name : String} {k : Nat}

/-- What an entry places is a label of the program. -/
theorem mem_labels_of_placed? (h : e.placed? (front.waitingAfter none) = some (name, k)) :
    (name, front.size + k) ∈ labels (front ++ e :: rest) := by
  rw [labels_append, labelsFrom, h]
  simp

/-- A label on a line of its own is placed by the next entry. -/
theorem exists_placed?_of_label (hsound : p.LabelsSound) (h : .label name ∈ p) :
    ∃ front e rest k, p = front ++ e :: rest ∧
      e.placed? (waitingAfter none front) = some (name, k) := by
  obtain ⟨front, rest, rfl⟩ := List.append_of_mem h
  have hunblocked := (unblocked_append _ _ none).mp hsound.unblocked
  have hclosed := hsound.closed
  rw [waitingAfter_append] at hclosed
  have hwaiting : waitingAfter none (front ++ [.label name]) = some name := by
    rw [waitingAfter_append]
    rfl
  cases rest with
  | nil => contradiction
  | cons e rest =>
      refine ⟨front ++ [.label name], e, rest, ?_⟩
      rw [hwaiting]
      cases e with
      | label other => exact absurd hunblocked.2.2.1 (Option.some_ne_none name)
      | definition other value => exact ⟨0, by simp, rfl⟩
      | code mark es =>
          cases mark with
          | none => exact ⟨codeSize es.dropLast, by simp, rfl⟩
          | some other => exact absurd hunblocked.2.2.1 (Option.some_ne_none name)

/-- The labels that are placed are those that lines define. -/
theorem mem_labels_iff (hsound : p.LabelsSound) :
    (∃ n, (name, n) ∈ p.labels) ↔ p.DefinesLabel name := by
  constructor
  · rintro ⟨n, hn⟩
    obtain ⟨front, e, rest, k, rfl, hplaced, -⟩ := exists_of_mem_labels hn
    have hwaiting (h : waitingAfter none front = some name) :
        DefinesLabel (front ++ e :: rest) name := by
      obtain ⟨front, rfl⟩ := waitingAfter_eq_some_iff.mp h
      exact .inl (by simp)
    cases e with
    | label other => contradiction
    | definition other value =>
        obtain ⟨w, hw, heq⟩ := Option.map_eq_some_iff.mp hplaced
        cases heq
        exact hwaiting hw
    | code mark es =>
        obtain ⟨w, hw, heq⟩ := Option.map_eq_some_iff.mp hplaced
        cases heq
        cases mark with
        | none => exact hwaiting hw
        | some other =>
            cases hw
            exact .inr ⟨es, by simp⟩
  · rintro (h | ⟨es, h⟩)
    · obtain ⟨front, e, rest, k, rfl, hplaced⟩ := exists_placed?_of_label hsound h
      exact ⟨_, mem_labels_of_placed? hplaced⟩
    · obtain ⟨front, rest, rfl⟩ := List.append_of_mem h
      exact ⟨_, mem_labels_of_placed? (k := codeSize es.dropLast) rfl⟩

end SourceProgram

/-! ## Values -/

namespace Draft

variable {d d' : Draft} {p : SourceProgram}

/-- Once all operands are settled, every variable that was remembered has a
value. -/
theorem Reflects.valuesOf_ok (hr : d.Reflects p) (hfits : p.size ≤ offsetLimit)
    {bytes : List Byte} (hemit : d.emit d.placed.toList = .ok (bytes, d')) :
    ∃ values, d'.valuesOf d'.referenced = .ok values := by
  have hb := hr.bindings_eq hfits
  obtain ⟨is, his⟩ := means_of_emit hb hr.placed hemit
  obtain ⟨d₁, hemit₁, hscope, hreadable⟩ := emit_of_means hb hr.placed his (hr.readable his)
  rw [hemit₁] at hemit
  cases hemit
  exact Draft.valuesOf_ok (by rw [hscope, hb]) hreadable

/-- A source is refused at the end for an open label, for its size, or for an
operand; never for the value of a variable. -/
theorem Reflects.finish_eq_error_iff (hr : d.Reflects p) {e : AssemblyError} :
    d.finish = .error e ↔
      (∃ name span, d.openLabel = some (name, span) ∧ e = .danglingLabel name span) ∨
        (d.openLabel = none ∧
          ((offsetLimit < d.size ∧ e = .tooLarge d.size) ∨
            (d.size ≤ offsetLimit ∧ d.emit d.placed.toList = .error e))) := by
  unfold finish
  cases hopen : d.openLabel with
  | some label =>
      obtain ⟨name, span⟩ := label
      simp [eq_comm]
  | none =>
      rcases Nat.lt_or_ge offsetLimit d.size with hlarge | hfits
      · simp [hlarge, Nat.not_le.mpr hlarge, eq_comm]
      · simp only [gt_iff_lt, Nat.not_lt.mpr hfits, hfits, if_false]
        cases hemit : d.emit d.placed.toList with
        | error e' => simp [bind, Except.bind]
        | ok r =>
            obtain ⟨bytes, d'⟩ := r
            obtain ⟨values, hvalues⟩ := hr.valuesOf_ok (hr.size ▸ hfits) hemit
            simp [bind, Except.bind, pure, Except.pure, hvalues]

end Draft

/-! ## Symbols -/

/-- The symbols of an assembly.  The labels are those that lines define, each
with its offset; the values are those of the variables that emitted operands
lead to when all names are in sight, directly or through other variables, each
with the number that it stands for.  Once all operands are settled none of
these values is refused. -/
theorem symbols_exact (source : String) :
    (∀ a, (assemble source).value = .ok a →
      ∃ p, SourceProgram.ofSource? source = some p ∧
        (∀ name, (a.symbols.labels.find? name).isSome ↔ p.DefinesLabel name) ∧
        (∀ name offset, a.symbols.labels.find? name = some offset →
          p.label? name = some offset.toNat) ∧
        (∀ name, (a.symbols.values.find? name).isSome ↔ p.Meets name) ∧
        ∀ name w, a.symbols.values.find? name = some w →
          p.bindings.Denotes (.reference name) w.toInt) ∧
    ∀ d, (Draft.ingestAll {} (SourceLine.ofSource source)).value = .ok d →
      (∀ bytes d', d.size ≤ offsetLimit → d.emit d.placed.toList = .ok (bytes, d') →
        ∃ values, d'.valuesOf d'.referenced = .ok values) ∧
      ∀ e, d.finish = .error e ↔
        (∃ name span, d.openLabel = some (name, span) ∧ e = .danglingLabel name span) ∨
          (d.openLabel = none ∧
            ((offsetLimit < d.size ∧ e = .tooLarge d.size) ∨
              (d.size ≤ offsetLimit ∧ d.emit d.placed.toList = .error e))) := by
  refine ⟨fun a ha => ?_, fun d hd => ?_⟩
  · obtain ⟨p, is, hp, h⟩ := assembles_of_assemble ha
    obtain ⟨d, hb, hvalues, hreferenced⟩ := exists_valuesOf_of_assemble ha hp
    refine ⟨p, hp, fun name => ?_, fun name offset hfind => ?_, fun name => ?_,
      fun name w hfind => ((Draft.find?_valuesOf_iff hb hvalues).mp hfind).2⟩
    · rw [h.labels, Option.isSome_map, ← SourceProgram.mem_labels_iff h.sound,
        Option.isSome_iff_exists]
      exact exists_congr fun n => ⟨SourceProgram.mem_labels_of_label?,
        SourceProgram.label?_of_mem h.sound.distinct⟩
    · rw [h.labels] at hfind
      obtain ⟨n, hn, rfl⟩ := Option.map_eq_some_iff.mp hfind
      rw [hn, Draft.toNat_offsetAddress (Nat.le_trans (SourceProgram.le_size_of_label? hn) h.fits)]
    · rw [Draft.isSome_valuesOf_iff hb hvalues, hreferenced]
  · obtain ⟨p, -, hr⟩ := Draft.reflects_nil.ingestAll hd
    rw [List.nil_append] at hr
    exact ⟨fun bytes d' hfits => hr.valuesOf_ok (hr.size ▸ hfits),
      fun e => hr.finish_eq_error_iff⟩

end StackRisc
