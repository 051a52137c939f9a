import StackRisc.NameTable

/-!
# StackRisc.Proofs.NameTable

What looking a name up in a table gives after insertions, and how many
different names a table can hold.
-/

namespace StackRisc.NameTable

variable {α β : Type}

/-! ## Lookups -/

@[simp] theorem find?_empty (name : String) : (empty : NameTable α).find? name = none := rfl

/-- An inserted name finds its value, and other names find theirs. -/
theorem find?_insertEntry (name other : String) (value : α) (es : List (String × α)) :
    (insertEntry name value es).find? (·.1 == other) =
      if name = other then some (name, value) else es.find? (·.1 == other) := by
  induction es with
  | nil =>
      by_cases h : name = other
      · simp [insertEntry, h]
      · simp [insertEntry, h]
  | cons e rest ih =>
      simp only [insertEntry]
      split
      · by_cases h : name = other
        · simp [h]
        · simp [h, List.find?_cons]
      · split
        · next heq =>
          by_cases h : name = other
          · simp [h]
          · have he : ¬ e.1 = other := by rw [← heq]; exact h
            simp [h, he]
        · next hne =>
          by_cases h : name = other
          · have he : ¬ e.1 = other := by rw [← h]; exact fun h' => hne h'.symm
            simp only [List.find?_cons, beq_eq_false_iff_ne.mpr he, ih, if_pos h]
          · rw [if_neg h] at ih ⊢
            simp only [List.find?_cons, ih]

/-- The value under a name is the one inserted last. -/
theorem find?_insert (t : NameTable α) (name other : String) (value : α) :
    (t.insert name value).find? other = if name = other then some value else t.find? other := by
  simp only [find?, insert, find?_insertEntry]
  by_cases h : name = other
  · simp [h]
  · simp [h]

/-- A table in which no name is found has no entries. -/
theorem eq_empty {t : NameTable α} (h : ∀ name, t.find? name = none) : t = empty := by
  obtain ⟨entries, ordered⟩ := t
  cases entries with
  | nil => rfl
  | cons e rest =>
      have hfirst := h e.1
      simp [find?] at hfirst

/-! ## Tables of entries -/

/-- In entries without a repeated name each insertion stays visible. -/
theorem find?_foldl_insert (es : List (String × α)) (t : NameTable α) (name : String)
    (hd : (es.map Prod.fst).Nodup) :
    (es.foldl (fun t e => t.insert e.1 e.2) t).find? name =
      ((es.find? (·.1 == name)).map Prod.snd).or (t.find? name) := by
  induction es generalizing t with
  | nil => simp
  | cons e rest ih =>
      obtain ⟨hfresh, hrest⟩ := List.nodup_cons.mp hd
      rw [List.foldl_cons, ih _ hrest, find?_insert]
      by_cases h : e.1 = name
      · have hnone : rest.find? (·.1 == name) = none := by
          rw [List.find?_eq_none]
          intro x hx
          rw [beq_iff_eq]
          intro hxn
          exact hfresh (h ▸ hxn ▸ List.mem_map_of_mem hx)
        simp [h, hnone]
      · simp [h]

/-- The names of a table are all different. -/
theorem nodup_names (t : NameTable α) : t.names.Nodup := by
  rw [names, List.Nodup, List.pairwise_map]
  refine t.ordered.imp fun {a b} h he => ?_
  rw [he] at h
  exact String.lt_irrefl _ h

/-- Rebuilding a table with every value passed through a function. -/
theorem find?_ofList_map (t : NameTable α) (f : α → β) (name : String) :
    (ofList (t.entries.map fun e => (e.1, f e.2))).find? name = (t.find? name).map f := by
  have hd : ((t.entries.map fun e => (e.1, f e.2)).map Prod.fst).Nodup := by
    rw [List.map_map]
    exact t.nodup_names
  rw [ofList, find?_foldl_insert _ _ _ hd, find?_empty]
  simp [find?, List.find?_map, Function.comp_def]

/-! ## Tables from their own entries -/

/-- A name behind all others is put at the end. -/
theorem insertEntry_of_forall_lt {name : String} {es : List (String × α)}
    (h : ∀ e ∈ es, e.1 < name) (value : α) : insertEntry name value es = es ++ [(name, value)] := by
  induction es with
  | nil => rfl
  | cons e es ih =>
      have he : e.1 < name := h e List.mem_cons_self
      rw [insertEntry, if_neg (String.lt_asymm he), if_neg (String.ne_of_lt he).symm,
        ih fun x hx => h x (List.mem_cons_of_mem e hx), List.cons_append]

/-- Entries in order are put behind those of a table. -/
theorem entries_foldl_insert {es : List (String × α)} {t : NameTable α}
    (h : (t.entries ++ es).Pairwise fun a b => a.1 < b.1) :
    (es.foldl (fun t e => t.insert e.1 e.2) t).entries = t.entries ++ es := by
  induction es generalizing t with
  | nil => exact (List.append_nil _).symm
  | cons e es ih =>
      have hlast : (t.insert e.1 e.2).entries = t.entries ++ [e] :=
        insertEntry_of_forall_lt
          (fun x hx => (List.pairwise_append.mp h).2.2 x hx e List.mem_cons_self) e.2
      rw [List.foldl_cons, ih (by rw [hlast]; simpa using h), hlast, List.append_assoc,
        List.singleton_append]

/-- A table is rebuilt from its entries. -/
theorem ofList_entries (t : NameTable α) : ofList t.entries = t := by
  have hentries : (ofList t.entries).entries = t.entries := entries_foldl_insert t.ordered
  cases h : ofList t.entries with
  | mk entries ordered =>
      cases t with
      | mk entries' ordered' =>
          rw [h] at hentries
          cases hentries
          rfl

/-! ## Values passed through a function -/

/-- A table with every value passed through a function. -/
def map (f : α → β) (t : NameTable α) : NameTable β :=
  ⟨t.entries.map fun e => (e.1, f e.2), List.pairwise_map.mpr t.ordered⟩

@[simp] theorem size_map (f : α → β) (t : NameTable α) : (t.map f).size = t.size :=
  List.length_map _

/-- A table is changed value by value. -/
@[simp] theorem find?_map (f : α → β) (t : NameTable α) (name : String) :
    (t.map f).find? name = (t.find? name).map f := by
  simp [find?, map, List.find?_map, Function.comp_def]

@[simp] theorem contains_map (f : α → β) (t : NameTable α) (name : String) :
    (t.map f).contains name = t.contains name := by
  simp [contains]

theorem insertEntry_map (f : α → β) (name : String) (value : α) (es : List (String × α)) :
    insertEntry name (f value) (es.map fun e => (e.1, f e.2)) =
      (insertEntry name value es).map fun e => (e.1, f e.2) := by
  induction es with
  | nil => rfl
  | cons e es ih =>
      rw [List.map_cons, insertEntry, insertEntry, ih]
      split
      · rfl
      · split <;> rfl

/-- Inserting and changing values come in either order. -/
theorem map_insert (f : α → β) (t : NameTable α) (name : String) (value : α) :
    (t.insert name value).map f = (t.map f).insert name (f value) := by
  simp only [map, insert, insertEntry_map]

/-! ## Counting names -/

/-- A name that is found is in the table. -/
theorem mem_names_of_find? {t : NameTable α} {name : String} {value : α}
    (h : t.find? name = some value) : name ∈ t.names := by
  obtain ⟨e, he, -⟩ := Option.map_eq_some_iff.mp h
  have hname : e.1 = name := by simpa using List.find?_some he
  exact hname ▸ List.mem_map_of_mem (List.mem_of_find?_eq_some he)

/-- A table has at least as many names as any list of different ones in it. -/
theorem length_le_size {t : NameTable α} {names : List String} (hd : names.Nodup)
    (h : ∀ name ∈ names, (t.find? name).isSome) : names.length ≤ t.size := by
  have hsub : names ⊆ t.names := by
    intro name hn
    obtain ⟨value, hv⟩ := Option.isSome_iff_exists.mp (h name hn)
    exact mem_names_of_find? hv
  have hle := hd.length_le_of_subset hsub
  simpa [size, NameTable.names] using hle

end StackRisc.NameTable
