import StackRisc.Computer.Run
import StackRisc.Proofs.Computer.Guest

/-!
# StackRisc.Proofs.Computer.Stability

A machine changes its memory only through writes.  So a relation that every
write keeps (`Memory.Stable`) holds between the memories before and after an
action, a step (`keeps_step`) and a run of any length
(`Computer.Reaches.stable`), however they end.
-/

namespace StackRisc

/-! ## Stable relations -/

/-- A relation between memories before and after that every write keeps. -/
structure Memory.Stable (R : Memory → Memory → Prop) : Prop where
  refl (m) : R m m
  trans {m m' m''} : R m m' → R m' m'' → R m m''
  write {m m' width cpu cpu' address v} :
    (Memory.write m width cpu address v).value = .ok (m', cpu') → R m m'

/-- All that programs do to memory keeps its map. -/
theorem Memory.stable_sameMap : Stable SameMap where
  refl := .refl
  trans := .trans
  write h := (sameMap_of_write h).1

/-! ## Actions -/

namespace Action

variable {α β : Type} {R : Memory → Memory → Prop} {x : Action α} {f : α → Action β}

/-- The memories before and after the action are related, however it ends. -/
def Keeps (R : Memory → Memory → Prop) (x : Action α) : Prop :=
  ∀ ⦃c r d⦄, x.Ends c r d → R c.memory d.memory

/-- An action that leaves memory as it is keeps every stable relation. -/
theorem keeps_of_memory_eq (hR : Memory.Stable R)
    (h : ∀ c, (x.run c).computer.memory = c.memory) : x.Keeps R := by
  rintro c r d ⟨-, rfl⟩
  rw [h c]
  exact hR.refl c.memory

/-- Actions that keep a relation of memories follow one another. -/
theorem Keeps.bind (hR : Memory.Stable R) (hx : x.Keeps R) (hf : ∀ a, (f a).Keeps R) :
    (x >>= f).Keeps R := by
  intro c r d h
  rcases ends_bind.mp h with ⟨a, e, hfirst, hsecond⟩ | ⟨fault, hfirst, -⟩
  · exact hR.trans (hx hfirst) (hf a hsecond)
  · exact hx hfirst

/-! ## Steps -/

/-- Stores keep it. -/
theorem keeps_store (hR : Memory.Stable R) (width : Width) (address : Address) (v : Word) :
    (store width address v).Keeps R := by
  intro c r d h
  cases r with
  | ok =>
      obtain ⟨memory, cpu, hwrite, rfl⟩ := ends_store_ok.mp h
      exact hR.write hwrite
  | error fault =>
      obtain ⟨-, rfl⟩ := ends_store_error.mp h
      exact hR.refl c.memory

/-- A program changes memory only through writes. -/
theorem Guest.keeps (hR : Memory.Stable R) (h : Guest x) : x.Keeps R := by
  induction h with
  | plain h => exact keeps_of_memory_eq hR fun c => (h default c).1
  | store width address v => exact keeps_store hR width address v
  | bind _ _ hx hf => exact .bind hR hx hf
  | look _ _ hg => exact .bind hR (keeps_of_memory_eq hR fun _ => rfl) hg

theorem keeps_present (hR : Memory.Stable R) : present.Keeps R := by
  refine keeps_of_memory_eq hR fun c => ?_
  unfold run present
  split
  · split
    · rfl
    · split
      · rfl
      · split <;> rfl
  · rfl

/-- Completing an instruction keeps it. -/
theorem keeps_complete (hR : Memory.Stable R) (i : Instruction) (flow : Flow) :
    (i.complete flow).Keeps R := by
  have quiet {g : Computer → Computer} (h : ∀ c, (g c).memory = c.memory) :
      (modify g).Keeps R := keeps_of_memory_eq hR h
  cases flow with
  | next =>
      exact .bind hR (quiet fun _ => rfl) fun _ =>
        .bind hR (quiet fun _ => rfl) fun _ => keeps_present hR
  | jump => exact .bind hR (quiet fun _ => rfl) fun _ => keeps_present hR

/-- A step changes memory only through writes. -/
theorem keeps_step (hR : Memory.Stable R) : step.Keeps R := by
  rw [step_eq]
  exact .bind hR (guest_fetch.keeps hR) fun i =>
    .bind hR ((guest_execute i).keeps hR) fun flow => keeps_complete hR i flow

end Action

/-! ## Runs -/

namespace Computer

variable {c d : Computer} {R : Memory → Memory → Prop}

/-- What a machine can become: steps follow each other whatever their
results, and between two of them the host may change the files and take
frames from the display. -/
inductive Reaches (c : Computer) : Computer → Prop
  | refl : Reaches c c
  | step {d : Computer} (h : Reaches c d) : Reaches c d.step.computer
  | host {d : Computer} (h : Reaches c d) (files : FileSystem) (link : Option DisplayLink) :
      Reaches c { d with files, link }

/-- Taking a picture reaches no other memory. -/
theorem Reaches.receive (h : c.Reaches d) : c.Reaches d.receive.2 := by
  unfold Computer.receive
  split
  · exact h.host d.files _
  · exact h

/-- A run, however it ends, ends with a machine that was reached. -/
theorem Reaches.runWithin (h : c.Reaches d) (fuel : Nat) (log : Array Event) :
    c.Reaches (runWithin fuel d log).computer := by
  induction fuel generalizing d log with
  | zero => exact h
  | succ fuel ih =>
      rw [Computer.runWithin]
      split
      · split
        · exact h
        · dsimp only
          split
          · exact ih h.step _
          · exact h.step
      · exact h

/-- A run that shows its pictures reaches where it ends. -/
theorem Reaches.runShowingWithin (h : c.Reaches d) (fuel : Nat) (log : Array Event)
    (frames : Array Frame) : c.Reaches (runShowingWithin fuel d log frames).1.computer := by
  induction fuel generalizing d log frames with
  | zero => exact h
  | succ fuel ih =>
      rw [Computer.runShowingWithin]
      split
      · split
        · exact h
        · dsimp only
          split
          · exact ih h.step.receive _ _
          · exact h.step.receive
      · exact h

/-- What every write keeps, every run keeps. -/
theorem Reaches.stable (h : c.Reaches d) (hR : Memory.Stable R) : R c.memory d.memory := by
  induction h with
  | refl => exact hR.refl c.memory
  | step _ ih => exact hR.trans ih (Action.keeps_step hR ⟨rfl, rfl⟩)
  | host _ files link ih => exact ih

end Computer

end StackRisc
