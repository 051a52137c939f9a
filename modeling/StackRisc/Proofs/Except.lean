/-!
# StackRisc.Proofs.Except

When a computation that can fail succeeds, step by step.
-/

namespace Except

variable {ε ε' α α' β β' : Type}

theorem exists_eq_ok_of_isOk {x : Except ε α} (h : x.isOk = true) : ∃ a, x = .ok a := by
  cases x with
  | error e => contradiction
  | ok a => exact ⟨a, rfl⟩

/-- Two steps succeed when both do. -/
theorem bind_eq_ok_iff {x : Except ε α} {f : α → Except ε β} {b : β} :
    (x >>= f) = .ok b ↔ ∃ a, x = .ok a ∧ f a = .ok b := by
  cases x with
  | error e => simp [bind, Except.bind]
  | ok a => simp [bind, Except.bind]

/-- A function changes the result of a computation that succeeds. -/
theorem map_eq_ok_iff {x : Except ε α} {f : α → β} {b : β} :
    x.map f = .ok b ↔ ∃ a, x = .ok a ∧ f a = b := by
  cases x with
  | error e => simp [Except.map]
  | ok a => simp [Except.map]

/-- A function changes the error of a computation that fails. -/
theorem mapError_eq_error_iff {x : Except ε α} {f : ε → ε'} {e : ε'} :
    x.mapError f = .error e ↔ ∃ e₀, x = .error e₀ ∧ f e₀ = e := by
  cases x with
  | error e₀ =>
      show (error (f e₀) : Except ε' α) = .error e ↔ _
      simp
  | ok a =>
      show (ok a : Except ε' α) = .error e ↔ _
      simp

@[simp] theorem pure_eq_ok_iff {a b : α} : (pure a : Except ε α) = .ok b ↔ a = b := by
  simp [pure, Except.pure]

/-! ## Errors that do not occur -/

/-- A computation does not fail with an error of some kind. -/
def Avoids (bad : ε → Prop) (x : Except ε α) : Prop := ∀ e, x = .error e → ¬bad e

namespace Avoids

variable {bad : ε → Prop}

theorem ok (a : α) : Avoids bad (.ok a : Except ε α) := fun _ h => nomatch h

theorem pure (a : α) : Avoids bad (Pure.pure a : Except ε α) := ok a

theorem error {e : ε} (h : ¬bad e) : Avoids bad (.error e : Except ε α) := by
  rintro _ ⟨⟩
  exact h

/-- Two steps avoid an error if both do. -/
theorem bind {x : Except ε α} {f : α → Except ε β} (hx : Avoids bad x)
    (hf : ∀ a, Avoids bad (f a)) : Avoids bad (x >>= f) := by
  cases x with
  | error e => exact error (hx e rfl)
  | ok a => exact hf a

end Avoids

/-! ## Results and errors that meet a condition -/

/-- What a computation gives meets a condition, and what it fails with meets
another one. -/
def Yields (P : α → Prop) (E : ε → Prop) : Except ε α → Prop
  | .ok a => P a
  | .error e => E e

namespace Yields

variable {P : α → Prop} {Q : β → Prop} {E : ε → Prop} {x : Except ε α}

/-- Two steps meet the conditions if the second one does after every result of
the first. -/
theorem bind {f : α → Except ε β} (hx : Yields P E x) (hf : ∀ a, P a → Yields Q E (f a)) :
    Yields Q E (x >>= f) := by
  cases x with
  | error e => exact hx
  | ok a => exact hf a hx

theorem map {f : α → β} (hx : Yields P E x) (hf : ∀ a, P a → Q (f a)) :
    Yields Q E (x.map f) := by
  cases x with
  | error e => exact hx
  | ok a => exact hf a hx

end Yields

/-! ## Results and errors passed through functions -/

/-- A computation with what it gives, and what it fails with, passed through
functions. -/
def bimap (f : α → α') (g : ε → ε') : Except ε α → Except ε' α'
  | .ok a => .ok (f a)
  | .error e => .error (g e)

variable {f : α → α'} {g : ε → ε'} {h : β → β'} {x : Except ε α}

/-- Two steps are passed through if each of them is. -/
theorem bimap_bind {k : α → Except ε β} {k' : α' → Except ε' β'}
    (hk : ∀ a, (k a).bimap h g = k' (f a)) : (x >>= k).bimap h g = x.bimap f g >>= k' := by
  cases x with
  | error e => rfl
  | ok a => exact hk a

/-- Two steps give the same as two others if each of them does. -/
theorem bimap_bind_congr {y : Except ε α} {k l : α → Except ε β}
    (hxy : x.bimap f g = y.bimap f g)
    (hkl : ∀ a b, f a = f b → (k a).bimap h g = (l b).bimap h g) :
    (x >>= k).bimap h g = (y >>= l).bimap h g := by
  cases x with
  | error e =>
      cases y with
      | error e' => exact congrArg Except.error (Except.error.inj hxy)
      | ok b => contradiction
  | ok a =>
      cases y with
      | error e' => contradiction
      | ok b => exact hkl a b (Except.ok.inj hxy)

end Except
