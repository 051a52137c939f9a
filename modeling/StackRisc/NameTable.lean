/-!
# StackRisc.NameTable

Finite maps from names, kept in the order of the names, so that two tables
with the same entries are the same table.
-/

namespace StackRisc

/-- A finite map from names, in increasing order of the names. -/
structure NameTable (α : Type) where
  entries : List (String × α)
  ordered : entries.Pairwise (fun a b => a.1 < b.1)
  deriving DecidableEq, Repr

namespace NameTable

variable {α : Type}

def empty : NameTable α := ⟨[], .nil⟩

instance : Inhabited (NameTable α) := ⟨empty⟩

def size (t : NameTable α) : Nat := t.entries.length

def names (t : NameTable α) : List String := t.entries.map Prod.fst

def find? (t : NameTable α) (name : String) : Option α :=
  (t.entries.find? (·.1 == name)).map Prod.snd

def contains (t : NameTable α) (name : String) : Bool := (t.find? name).isSome

/-! ## Insertion -/

/-- Put a value under a name in ordered entries. -/
def insertEntry (name : String) (value : α) : List (String × α) → List (String × α)
  | [] => [(name, value)]
  | e :: rest =>
    if name < e.1 then (name, value) :: e :: rest
    else if name = e.1 then (name, value) :: rest
    else e :: insertEntry name value rest

theorem mem_insertEntry {name : String} {value : α} {es : List (String × α)} {e : String × α}
    (h : e ∈ insertEntry name value es) : e = (name, value) ∨ e ∈ es := by
  induction es with
  | nil => simpa [insertEntry] using h
  | cons x rest ih =>
    simp only [insertEntry] at h
    split at h
    · simpa using h
    · split at h
      · rcases List.mem_cons.mp h with h | h
        · exact .inl h
        · exact .inr (.tail _ h)
      · rcases List.mem_cons.mp h with h | h
        · exact .inr (h ▸ .head _)
        · rcases ih h with h | h
          · exact .inl h
          · exact .inr (.tail _ h)

/-- Entries stay in the order of their names. -/
theorem pairwise_insertEntry (name : String) (value : α) (es : List (String × α))
    (h : es.Pairwise (fun a b => a.1 < b.1)) :
    (insertEntry name value es).Pairwise (fun a b => a.1 < b.1) := by
  induction es with
  | nil => simp [insertEntry]
  | cons x rest ih =>
    obtain ⟨hx, hrest⟩ := List.pairwise_cons.mp h
    simp only [insertEntry]
    split
    · next hlt =>
      refine List.pairwise_cons.mpr ⟨fun e he => ?_, h⟩
      rcases List.mem_cons.mp he with he | he
      · exact he ▸ hlt
      · exact String.lt_trans hlt (hx e he)
    · next hge =>
      split
      · next heq =>
        refine List.pairwise_cons.mpr ⟨fun e he => ?_, hrest⟩
        exact heq ▸ hx e he
      · next hne =>
        refine List.pairwise_cons.mpr ⟨fun e he => ?_, ih hrest⟩
        rcases mem_insertEntry he with he | he
        · subst he
          rcases String.le_total name x.1 with hle | hle
          · exact absurd (String.le_antisymm hle (String.not_lt.mp hge)) hne
          · exact String.not_le.mp fun h' => hne (String.le_antisymm h' hle)
        · exact hx e he

/-- Put a value under a name, replacing the one it had. -/
def insert (t : NameTable α) (name : String) (value : α) : NameTable α :=
  ⟨insertEntry name value t.entries, pairwise_insertEntry name value t.entries t.ordered⟩

/-- The table of some entries; of two entries for one name the later counts. -/
def ofList (entries : List (String × α)) : NameTable α :=
  entries.foldl (fun t e => t.insert e.1 e.2) empty

end NameTable

end StackRisc
