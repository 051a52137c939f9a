import StackRisc.Text.Cursor
import Mathlib.Data.List.TakeWhile

/-!
# StackRisc.Proofs.Text.Runs

Runs of characters of a class, up to the first other one: where they end, and
that a cursor passes them.
-/

namespace StackRisc.Text

variable {p : Char → Bool} {front rest : List Char} {offset : Nat}

/-- A run ends at the first character of another kind. -/
theorem takeWhile_append (hfront : ∀ x ∈ front, p x = true)
    (hrest : ∀ x ∈ rest.head?, p x = false) : (front ++ rest).takeWhile p = front := by
  rw [List.takeWhile_append_of_pos hfront]
  cases rest with
  | nil => exact List.append_nil _
  | cons x rest => rw [List.takeWhile_cons_of_neg (by simp [hrest x rfl]), List.append_nil]

/-- Behind the run is the rest. -/
theorem dropWhile_append (hfront : ∀ x ∈ front, p x = true)
    (hrest : ∀ x ∈ rest.head?, p x = false) : (front ++ rest).dropWhile p = rest := by
  rw [List.dropWhile_append_of_pos hfront]
  cases rest with
  | nil => rfl
  | cons x rest => rw [List.dropWhile_cons_of_neg (by simp [hrest x rfl])]

theorem forall_mem_head?_append {P : Char → Prop} (hne : front ≠ []) (hfront : ∀ x ∈ front, P x) :
    ∀ x ∈ (front ++ rest).head?, P x := by
  cases front with
  | nil => contradiction
  | cons y front =>
      rintro x ⟨⟩
      exact hfront _ List.mem_cons_self

/-- A text is a run of characters of a class and what is behind it. -/
theorem exists_run (p : Char → Bool) (cs : List Char) :
    ∃ front rest, cs = front ++ rest ∧ (∀ x ∈ front, p x = true) ∧
      ∀ x ∈ rest.head?, p x = false :=
  ⟨cs.takeWhile p, cs.dropWhile p, List.takeWhile_append_dropWhile.symm,
    fun _ => List.mem_takeWhile_imp, fun x hx => by
      have hhead := List.head?_dropWhile_not p cs
      rw [Option.mem_def.mp hx] at hhead
      exact hhead⟩

/-- A run of characters of a class ends in one place. -/
theorem run_unique {front' rest' : List Char} (hfront : ∀ x ∈ front, p x = true)
    (hrest : ∀ x ∈ rest.head?, p x = false) (hfront' : ∀ x ∈ front', p x = true)
    (hrest' : ∀ x ∈ rest'.head?, p x = false) (h : front ++ rest = front' ++ rest') :
    front = front' ∧ rest = rest' := by
  have htake := congrArg (List.takeWhile p) h
  have hdrop := congrArg (List.dropWhile p) h
  rw [takeWhile_append hfront hrest, takeWhile_append hfront' hrest'] at htake
  rw [dropWhile_append hfront hrest, dropWhile_append hfront' hrest'] at hdrop
  exact ⟨htake, hdrop⟩

namespace Cursor

/-- A run of characters of a class is passed up to the first other one. -/
theorem skip_append (hfront : ∀ x ∈ front, p x = true) (hrest : ∀ x ∈ rest.head?, p x = false) :
    skip p ⟨offset, front ++ rest⟩ = ⟨offset + utf8Size front, rest⟩ := by
  rw [skip, takeWhile_append hfront hrest, dropWhile_append hfront hrest]

end Cursor

end StackRisc.Text
