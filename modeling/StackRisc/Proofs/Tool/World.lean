import StackRisc.Tool.Request
import StackRisc.Tool.World

/-!
# StackRisc.Proofs.Tool.World

Running computations of the tool on a host that is a value, one request after
the other.
-/

namespace StackRisc.Tool

open World

variable {α β : Type} {w w' w'' : World}

/-- Computations on a world follow one another. -/
theorem World.bind_eq {x : Act α} {a : α} (h : x w = (a, w')) (f : α → Act β) :
    (x >>= f) w = f a w' :=
  calc (x >>= f) w
      = f (x w).1 (x w).2 := rfl
    _ = f a w' := by rw [h]

/-! ## Tasks that succeed -/

/-- The task succeeds with a value and leaves a world. -/
def Gives (x : Task Act α) (w : World) (a : α) (w' : World) : Prop := x.run w = (.ok a, w')

/-- Tasks that succeed follow one another. -/
theorem Gives.bind {x : Task Act α} {f : α → Task Act β} {a : α} {b : β} (h : Gives x w a w')
    (h' : Gives (f a) w' b w'') : Gives (x >>= f) w b w'' :=
  calc (x >>= f).run w
      = (x.run >>= ExceptT.bindCont f : Act _) w := rfl
    _ = (f a).run w' := bind_eq h _
    _ = (.ok b, w'') := h'

theorem gives_pure (a : α) (w : World) : Gives (pure a) w a w := rfl

theorem gives_report (e : Event) (w : World) :
    Gives (report e) w () { w with log := w.log.push e } := rfl

/-- Reports succeed and leave the disk. -/
theorem gives_reports (events : List Event) (w : World) :
    ∃ w', Gives (events.forM report) w () w' ∧ w'.disk = w.disk := by
  induction events generalizing w with
  | nil => exact ⟨w, rfl, rfl⟩
  | cons e rest ih =>
      obtain ⟨w', hrest, hdisk⟩ := ih { w with log := w.log.push e }
      exact ⟨w', (gives_report e w).bind hrest, hdisk⟩

/-- The lines of the input are those of the world. -/
theorem gives_foldLines {σ ρ : Type} {turn : σ → String → Act (σ ⊕ ρ)} {s : σ} {r : σ ⊕ ρ}
    (h : foldLinesOf turn w.input s w = (r, w')) :
    Gives (ExceptT.lift (Host.foldLines turn s)) w r w' := by
  have hfold : (Host.foldLines turn s : Act _) w = (r, w') := h
  exact bind_eq hfold fun r => pure (Except.ok r)

end StackRisc.Tool
