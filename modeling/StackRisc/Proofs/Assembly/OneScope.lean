import StackRisc.Proofs.Assembly.SecondPass

/-!
# StackRisc.Proofs.Assembly.OneScope

Two passes against one scope.  The first pass resolves operands while names
are still being collected, the second one when all are known; together they
do what one look at the whole program does:

* `Draft.Reflects.settle_deferred` — an operand that was resolved early has
  the value that it would have got later;
* `assemble_eq_one_scope` — a source is assembled exactly if its program can
  be, into the instructions that the program stands for.
-/

namespace StackRisc

/-- An instruction whose operand is left pending. -/
def Emission.deferred (e : Emission) : Placed := ⟨e.opcode, e.operand.map .pending⟩

namespace Draft

variable {d : Draft} {p : SourceProgram}

/-- What an operand stands for early, it stands for with all names in sight. -/
theorem Reflects.extends_early (hr : d.Reflects p) : d.scope.bindings.Extends p.early := by
  intro name value h
  have hvalue : p.definition? name = some value := h
  exact (hr.defines name).trans hvalue

/-- What the first pass makes of an operand changes nothing for the second
one. -/
theorem Reflects.settle_deferred (hr : d.Reflects p) {e : Emission} {q : Placed}
    (h : p.Holds e q) :
    (d.settle q).map Prod.fst = (d.settle e.deferred).map Prod.fst := by
  cases h with
  | bare op => rfl
  | pending op operand => rfl
  | @resolved op operand v hv h0 h1 ht =>
      obtain ⟨t, m, hm, hsays⟩ := SourceProgram.denotes_of_early hr.extends_early hv
      have hresolve : d.scope.resolve operand.literal operand.span =
          .ok ⟨some (Int32.ofInt v), t⟩ :=
        Scope.resolve_eq_some_iff.mpr ⟨m, v, hm, hsays, h0, h1, rfl⟩
      have htarget : checkTarget op (Int32.ofInt v) operand.span = .ok () :=
        (checkTarget_eq_ok_iff h0 h1).mpr ht
      have hlate : d.settle (Emission.deferred ⟨op, some operand⟩) =
          .ok (Int32.ofInt v, t) := by
        simp only [settle, Emission.deferred, Option.map_some, hresolve, bind, Except.bind,
          Option.getD_some, htarget]
        rfl
      rw [hlate]
      rfl

end Draft

/-- A source is assembled exactly if all its lines can be read, its labels can
be placed, its instructions fit and every operand stands for a number in
range when all names of the source are in sight; the image is made of the
instructions with these numbers, in order, each of them its operation code
followed by the digits of its operand, and of zeros.  No operand gets another
value for having been resolved early. -/
theorem assemble_eq_one_scope (source : String) :
    ((∃ a, (assemble source).value = .ok a) ↔
      ∃ p, SourceProgram.ofSource? source = some p ∧ p.LabelsSound ∧ p.size ≤ offsetLimit ∧
        ∀ e ∈ p.emissions, ∃ i, p.Means e i) ∧
    (∀ a, (assemble source).value = .ok a →
      ∃ p is, SourceProgram.ofSource? source = some p ∧
        List.Forall₂ p.Means p.emissions is ∧ a.image = Instruction.image is ∧
          a.image =
            (is.flatMap fun i => i.opcode.byte ::
              if i.opcode.hasOperand then littleEndian i.operand.toAddress.toNat else []) ++
                List.replicate (offsetLimit - p.size) 0) ∧
    (∀ d, (Draft.ingestAll {} (SourceLine.ofSource source)).value = .ok d →
      ∃ p, SourceProgram.ofSource? source = some p ∧
        List.Forall₂ (fun e q => q.opcode = e.opcode ∧
          (d.settle q).map Prod.fst = (d.settle e.deferred).map Prod.fst)
          p.emissions d.placed.toList) := by
  refine ⟨⟨?_, ?_⟩, ?_, ?_⟩
  · rintro ⟨a, ha⟩
    obtain ⟨p, is, hp, his⟩ := assembles_of_assemble ha
    exact ⟨p, hp, his.sound, his.fits, SourceProgram.exists_means_iff.mp ⟨is, his.means⟩⟩
  · rintro ⟨p, hp, hsound, hfits, hmeans⟩
    obtain ⟨is, his⟩ := SourceProgram.exists_means_iff.mpr hmeans
    obtain ⟨a, ha, -⟩ := assemble_of_means hp hsound hfits his
    exact ⟨a, ha⟩
  · intro a ha
    obtain ⟨p, is, hp, his⟩ := assembles_of_assemble ha
    exact ⟨p, is, hp, his.means, his.image, his.image_bytes⟩
  · intro d hd
    obtain ⟨p, hp, hr⟩ := Draft.reflects_nil.ingestAll hd
    rw [List.nil_append] at hr
    refine ⟨p, hp, hr.placed.imp fun e q hq => ⟨?_, hr.settle_deferred hq⟩⟩
    cases hq with
    | bare op => rfl
    | pending op operand => rfl
    | resolved _ _ _ _ => rfl

end StackRisc
