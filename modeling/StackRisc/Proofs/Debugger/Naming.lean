import Mathlib
import StackRisc.Debugger.Argument
import StackRisc.Proofs.Assembly.Loading
import StackRisc.Proofs.Assembly.Values
import StackRisc.Proofs.Source.Reading
import StackRisc.Proofs.Text.Blank
import StackRisc.Proofs.Text.Literal

/-!
# StackRisc.Proofs.Debugger.Naming

The names of a program as they are typed in the debugger.  The assembler takes
a name for a variable first and for a label second; the debugger looks among
the labels first.  So both agree on labels and on variables, and differ on a
name that is both:

* `Debugger.Argument.ofText_name` — a name is read in any case;
* `Debugger.resolve_operand_name` — what a name stands for in the debugger,
  against what was substituted for it;
* `Debugger.label_hides_variable` — a name that is both.
-/

namespace StackRisc

open Text

/-! ## Operands as they are written -/

namespace Expansion

variable {line : SourceLine} {token mnemonic : Lexeme} {arguments : List Lexeme}
  {es : List Emission} {e : Emission} {o : Operand}

/-- An operand is read from the text of its token. -/
theorem read?_of_operand (h : operand line token = .ok o) :
    Literal.read? token.text.toList = some o.literal := by
  unfold operand at h
  split at h
  · next literal hread =>
    cases h
    exact hread
  · cases h

/-- The operands of a line are its words, or the address of the first page. -/
theorem read?_of_expand (h : expand line mnemonic arguments = .ok es) (he : e ∈ es)
    (ho : o ∈ e.operand) :
    (∃ cs, Literal.read? cs = some o.literal) ∨ o.literal = .hex 0 := by
  have hstore : ∀ {address value : Operand}, e ∈ storeImmediate address value →
      o = address ∨ o = value := by
    intro address value hmem
    simp only [storeImmediate, List.mem_cons, List.not_mem_nil, or_false] at hmem
    rcases hmem with rfl | rfl | rfl | rfl <;> simp_all
  unfold expand at h
  split at h
  · split at h
    · obtain ⟨value, hvalue, h⟩ := Except.bind_eq_ok_iff.mp h
      cases h
      rcases hstore he with rfl | rfl
      · exact .inr rfl
      · exact .inl ⟨_, read?_of_operand hvalue⟩
    · cases h
  · split at h
    · cases h
    · split at h
      · cases h
        obtain rfl := List.mem_singleton.mp he
        contradiction
      · obtain ⟨address, haddress, h⟩ := Except.bind_eq_ok_iff.mp h
        obtain ⟨value, hvalue, h⟩ := Except.bind_eq_ok_iff.mp h
        cases h
        rcases hstore he with rfl | rfl
        · exact .inl ⟨_, read?_of_operand haddress⟩
        · exact .inl ⟨_, read?_of_operand hvalue⟩
      · cases h
    · split at h
      · split at h
        · obtain ⟨value, hvalue, h⟩ := Except.bind_eq_ok_iff.mp h
          cases h
          obtain rfl := List.mem_singleton.mp he
          cases ho
          exact .inl ⟨_, read?_of_operand hvalue⟩
        · cases h
      · split at h
        · cases h
          obtain rfl := List.mem_singleton.mp he
          contradiction
        · cases h

end Expansion

/-- The names among the operands of a source are written as names. -/
theorem SourceProgram.isName_of_operand {source : String} {p : SourceProgram}
    (hp : ofSource? source = some p) {e : Emission} (he : e ∈ p.emissions) {o : Operand}
    (ho : o ∈ e.operand) {name : String} (hname : o.literal = .reference name) :
    IsName name.toList := by
  obtain ⟨entry, hentry, he⟩ := List.mem_flatMap.mp he
  cases entry with
  | label | definition => exact absurd he List.not_mem_nil
  | code mark es =>
      obtain ⟨line, mnemonic, arguments, hexpand⟩ := exists_expand_of_mem hp hentry
      rcases Expansion.read?_of_expand hexpand he ho with ⟨cs, hread⟩ | hzero
      · rw [hname] at hread
        exact Literal.isName_of_read? hread
      · rw [hname] at hzero
        contradiction

namespace Debugger

namespace Argument

/-! ## Names as they are typed -/

variable {typed name : String} (h : upper typed.toList = name.toList)

include h

/-- A name that is typed in any case is read as that name. -/
theorem ofText_name (hname : IsName name.toList) : ofText typed = .ok (.name name) := by
  have hblank : ∀ c ∈ typed.toList, isBlank c = false := by
    intro c hc
    refine isBlank_eq_false_of_toUpper (hname.2 _ ?_)
    rw [← h]
    exact List.mem_map_of_mem hc
  unfold ofText
  rw [trim_eq_self_of_forall hblank, h]
  simp only [Literal.scan_name hname, ofLiteral, String.ofList_toList]

/-- What was typed in upper case is in upper case. -/
theorem toUpper_eq_self : name.toUpper = name := by
  refine String.toList_inj.mp ?_
  rw [toList_toUpper, ← h, upper_upper]

end Argument

/-! ## Names in symbols -/

section

variable {p : SourceProgram} {is : List Instruction} {a : Assembly} {name : String}
  {origin : Address}

/-- The debugger takes the name of a label for that label. -/
theorem resolve_label (ha : Assembles p is a) (hupper : name.toUpper = name) {n : Nat}
    (hn : p.label? name = some n) :
    Argument.resolve a.symbols origin (.name name) = .ok (origin + UInt32.ofNat n) := by
  have hlabel : a.symbols.label? name = some (UInt32.ofNat n) := by
    rw [Symbols.label?, hupper, ha.labels, hn, Option.map_some,
      Draft.offsetAddress_eq (Nat.le_trans (SourceProgram.le_size_of_label? hn) ha.fits)]
  simp only [Argument.resolve, hlabel]

/-- The debugger takes the name of no label for a variable. -/
theorem resolve_variable (ha : Assembles p is a) (hupper : name.toUpper = name)
    (hnone : p.label? name = none) {v : Int} (h0 : 0 ≤ v) (h1 : v ≤ Word.largest)
    (hv : a.symbols.values.find? name = some (Int32.ofInt v)) :
    Argument.resolve a.symbols origin (.name name) = .ok (UInt32.ofNat v.toNat) := by
  have hlabel : a.symbols.label? name = none := by
    rw [Symbols.label?, hupper, ha.labels, hnone, Option.map_none]
  have hsize : (Word.largest : Int) < UInt32.size := by decide
  simp only [Argument.resolve, hlabel, hv, Word.toInt_ofInt h0 h1, Argument.addressOf]
  rw [if_pos ⟨h0, by omega⟩]

end

/-- The names of a source in the debugger.  For each name that is written as an
operand there is one number, which the assembler substitutes for it.  The
debugger reads the name in any case.  A name that is no variable stands for the
label, from the origin on; a name that is no label stands for the number of the
variable; and a name that is both, for which the assembler substitutes the
variable, stands for the label. -/
theorem resolve_operand_name {source : String} {a : Assembly}
    (ha : (assemble source).value = .ok a) :
    ∃ p is, SourceProgram.ofSource? source = some p ∧
      List.Forall₂ p.Means p.emissions is ∧ a.image = Instruction.image is ∧
      ∀ e ∈ p.emissions, ∀ operand ∈ e.operand, ∀ name, operand.literal = .reference name →
        ∃ v, p.Means e (.ofOpcode e.opcode (Int32.ofInt v)) ∧
          p.bindings.Denotes (.reference name) v ∧ 0 ≤ v ∧ v ≤ Word.largest ∧
          ∀ typed : String, upper typed.toList = name.toList → ∀ origin,
            Argument.ofText typed = .ok (.name name) ∧
            (p.definition? name = none → ∃ n, p.label? name = some n ∧ v = n ∧
              Argument.resolve a.symbols origin (.name name) = .ok (origin + UInt32.ofNat n)) ∧
            ((p.definition? name).isSome → p.label? name = none →
              Argument.resolve a.symbols origin (.name name) = .ok (UInt32.ofNat v.toNat)) ∧
            ((p.definition? name).isSome → ∀ n, p.label? name = some n →
              Argument.resolve a.symbols origin (.name name) =
                .ok (origin + UInt32.ofNat n)) := by
  obtain ⟨p, is, hp, h⟩ := assembles_of_assemble ha
  refine ⟨p, is, hp, h.means, h.image, fun e he operand hoperand name hname => ?_⟩
  obtain ⟨i, hi⟩ := SourceProgram.exists_means_iff.mp ⟨is, h.means⟩ e he
  have hwritten := SourceProgram.isName_of_operand hp he hoperand hname
  cases hi with
  | bare => contradiction
  | @withOperand op _ v hv h0 h1 ht =>
      cases hoperand
      refine ⟨v, .withOperand hv h0 h1 ht, hname ▸ hv, h0, h1, fun typed htyped origin => ?_⟩
      have hupper : name.toUpper = name := Argument.toUpper_eq_self htyped
      refine ⟨Argument.ofText_name htyped hwritten, ?_, ?_, ?_⟩
      · intro hundefined
        rw [hname] at hv
        obtain ⟨through, last, hleads, hsays⟩ := hv
        cases hleads with
        | refl =>
            obtain ⟨-, n, hn, rfl⟩ := hsays
            exact ⟨n, hn, rfl, resolve_label h hupper hn⟩
        | step hdefined =>
            have hsome : p.definition? name = some _ := hdefined
            rw [hundefined] at hsome
            contradiction
      · intro hdefined hnone
        have hleads : p.bindings.Leads operand.literal [] (.reference name) := by
          rw [hname]
          exact .refl _
        exact resolve_variable h hupper hnone h0 h1
          (find?_values_of_assemble ha hp he rfl hleads hdefined (hname ▸ hv))
      · intro _ n hn
        exact resolve_label h hupper hn

/-- A variable that no label hides is found by the debugger, in any case. -/
theorem resolve_operand_name_screen :
    ∃ a, (assemble "screen = $40\nldi screen").value = .ok a ∧
      Argument.ofText "Screen" = .ok (.name "SCREEN") ∧
      Argument.resolve a.symbols 108 (.name "SCREEN") = .ok 64 := by
  obtain ⟨a, ha⟩ : ∃ a, (assemble "screen = $40\nldi screen").value = .ok a :=
    Except.exists_eq_ok_of_isOk (by decide +kernel)
  obtain ⟨p, is, hp, -, -, hnames⟩ := resolve_operand_name ha
  have hp' : SourceProgram.ofSource? "screen = $40\nldi screen" =
      some [.definition "SCREEN" (.hex 64),
        .code none [⟨.ldi, some ⟨.reference "SCREEN", ⟨17, 6⟩⟩⟩]] := by
    decide +kernel
  obtain rfl := Option.some.inj (hp.symm.trans hp')
  obtain ⟨v, -, hv, -, -, htyped⟩ :=
    hnames ⟨.ldi, some ⟨.reference "SCREEN", ⟨17, 6⟩⟩⟩ List.mem_cons_self _ rfl "SCREEN" rfl
  obtain rfl : v = 64 := hv.unique ⟨["SCREEN"], .hex 64, .step rfl (.refl _), rfl⟩
  obtain ⟨hread, -, hvariable, -⟩ := htyped "Screen" (by decide) 108
  exact ⟨a, ha, hread, hvariable rfl rfl⟩

/-- A program whose `LDI` loads the variable `X`, while the debugger takes the
name for the label of that instruction, five bytes behind the origin. -/
theorem label_hides_variable :
    let assembly := (assemble "x = $40\nldi #0\nx: ldi x").value.toOption
    assembly.map (·.image.take 10) = some [0x01, 0, 0, 0, 0, 0x01, 0x40, 0, 0, 0] ∧
      (Argument.ofText "x").toOption = some (.name "X") ∧
      assembly.map (fun a => (Argument.resolve a.symbols 108 (.name "X")).toOption) =
        some (some 113) := by
  decide +kernel

end Debugger

end StackRisc
