import StackRisc.Proofs.Host.Walk

/-!
# StackRisc.Proofs.Host.Disk

What writing and removing a file changes on a disk.  A write changes what one
file holds, or gives a new file to free names; a removal takes names away.
Directories and links stay what they are when a file is written, so every path
leads to where it led before:

* `Disk.file?` — the file a path leads to, by its number;
* `Disk.Wrote`, `Disk.exists_wrote` — what a write leaves;
* `Disk.read_of_write_other` — a file is changed by writing to another path
  exactly if both lead to the same file;
* `Disk.Single`, `Disk.file?_append_ne` — a path with more behind its last name
  leads to another file, where no link and no second name brings them together;
* `Disk.exists_remove`, `Disk.contains_of_remove` — a file that was written can
  be removed, and then there is nothing left.
-/

namespace StackRisc.Disk

variable {d d' : Disk} {names other : List String} {entry : Entry} {number n : Nat} {path : String}
  {contents : List Byte}

/-! ## Entries and files -/

section

variable {α β : Type} [BEq α] [LawfulBEq α] {key key' : α}

theorem lookup_filter_self (key : α) (l : List (α × β)) :
    (l.filter (·.1 != key)).lookup key = none := by
  rw [List.lookup_eq_none_iff]
  intro e he
  have hne := (List.mem_filter.mp he).2
  simp only [bne_iff_ne] at hne
  exact bne_iff_ne.mpr hne.symm

theorem lookup_filter_of_ne (h : key' ≠ key) (l : List (α × β)) :
    (l.filter (·.1 != key)).lookup key' = l.lookup key' := by
  induction l with
  | nil => rfl
  | cons e l ih =>
      by_cases he : e.1 = key
      · have hne : (key' == e.1) = false := beq_eq_false_iff_ne.mpr (he ▸ h)
        rw [List.filter_cons_of_neg (by simp [he]), ih, List.lookup_cons, hne]
      · rw [List.filter_cons_of_pos (by simpa using he), List.lookup_cons, List.lookup_cons, ih]

theorem lookup_assign_self (value : β) (l : List (α × β)) :
    (assign key value l).lookup key = some value :=
  List.lookup_cons_self

/-- Other keys keep their values. -/
theorem lookup_assign_of_ne (h : key' ≠ key) (value : β) (l : List (α × β)) :
    (assign key value l).lookup key' = l.lookup key' := by
  rw [assign, List.lookup_cons, beq_eq_false_iff_ne.mpr h]
  exact lookup_filter_of_ne h l

end

/-- Names that stand for no directory are looked up in the tree. -/
theorem find?_of_free (h : d.find? names ≠ some .directory) :
    names.isPrefixOf d.working = false ∧ d.find? names = d.tree.lookup names := by
  rw [find?] at h ⊢
  split at h
  · exact absurd rfl h
  · next hfree => exact ⟨Bool.not_eq_true _ ▸ hfree, if_neg hfree⟩

/-- What was placed under names is found there. -/
theorem find?_place_self (h : d.find? names ≠ some .directory) (entry : Entry) :
    (d.place names entry).find? names = some entry := by
  show (if names.isPrefixOf d.working then _ else (assign names entry d.tree).lookup names) = _
  rw [(find?_of_free h).1, if_neg (by decide), lookup_assign_self]

theorem find?_place_of_ne (h : other ≠ names) (entry : Entry) :
    (d.place names entry).find? other = d.find? other := by
  show (if other.isPrefixOf d.working then _ else (assign names entry d.tree).lookup other) = _
  rw [lookup_assign_of_ne h, find?]

/-- What was filled into a file is what it holds. -/
theorem contents_fill_self (d : Disk) (number : Nat) (contents : List Byte) :
    (d.fill number contents).contents number = contents := by
  show ((assign number contents d.files).lookup number).getD [] = _
  rw [lookup_assign_self, Option.getD_some]

theorem contents_fill_of_ne (h : n ≠ number) (contents : List Byte) :
    (d.fill number contents).contents n = d.contents n := by
  show ((assign number contents d.files).lookup n).getD [] = _
  rw [lookup_assign_of_ne h, Disk.contents]

/-- The number of a new file is larger than those of all others. -/
theorem lt_fresh (h : d.find? names = some (.file n)) : n < d.fresh := by
  have hfile := (find?_of_free (by rw [h]; exact nofun)).2
  rw [h] at hfile
  rw [fresh]
  generalize d.tree = l at hfile ⊢
  induction l with
  | nil => exact nomatch hfile
  | cons e l ih =>
      rw [List.lookup_cons] at hfile
      rw [List.foldr_cons]
      split at hfile
      · rw [← Option.some.inj hfile]
        exact Nat.lt_of_lt_of_le (Nat.lt_succ_self n) (Nat.le_max_right ..)
      · have hlt := ih hfile
        split
        · exact Nat.lt_of_lt_of_le hlt (Nat.le_max_left ..)
        · exact hlt

/-! ## Changes -/

/-- Names stand for a file that holds what was written to it: one that they
stood for before, or a new one.  Nothing else has changed. -/
structure Wrote (d : Disk) (names : List String) (number : Nat) (contents : List Byte)
    (d' : Disk) : Prop where
  working : d'.working = d.working
  before : d.find? names = some (.file number) ∨
    d.find? names = none ∧ ∀ other, d.find? other ≠ some (.file number)
  after : d'.find? names = some (.file number)
  kept {other : List String} (h : other ≠ names) : d'.find? other = d.find? other
  written : d'.contents number = contents
  others {n : Nat} (h : n ≠ number) : d'.contents n = d.contents n

/-- Filling a file writes it. -/
theorem wrote_fill (h : d.find? names = some (.file number)) (contents : List Byte) :
    Wrote d names number contents (d.fill number contents) where
  working := rfl
  before := .inl h
  after := h
  kept _ := rfl
  written := contents_fill_self d number contents
  others h := contents_fill_of_ne h contents

/-- Creating a file writes it, under a number of its own. -/
theorem wrote_create (h : d.find? names = none) (contents : List Byte) :
    Wrote d names d.fresh contents (d.create names contents) where
  working := rfl
  before := .inr ⟨h, fun _ hfile => absurd (lt_fresh hfile) (Nat.lt_irrefl _)⟩
  after := by
    show (d.place names (.file d.fresh)).find? names = _
    exact find?_place_self (by rw [h]; exact nofun) _
  kept {other} hne := by
    show (d.place names (.file d.fresh)).find? other = _
    exact find?_place_of_ne hne _
  written := contents_fill_self ..
  others hne := contents_fill_of_ne hne contents

/-- Removing an entry takes its names away. -/
theorem unnamed_filter (h : d.find? names ≠ some .directory) :
    Unnamed d names { d with tree := d.tree.filter (·.1 != names) } where
  working := rfl
  free := h
  gone := by
    show (if names.isPrefixOf d.working then _ else (d.tree.filter (·.1 != names)).lookup names) = _
    rw [(find?_of_free h).1, if_neg (by decide), lookup_filter_self]
  kept {other} hne := by
    show (if other.isPrefixOf d.working then _ else (d.tree.filter (·.1 != names)).lookup other) = _
    rw [lookup_filter_of_ne hne, find?]

namespace Wrote

variable (h : Wrote d names number contents d')

include h

/-- What is no file stays as it is. -/
theorem find?_iff (hother : ∀ n, entry ≠ .file n) :
    d'.find? other = some entry ↔ d.find? other = some entry := by
  by_cases hne : other = names
  · subst hne
    have hold : d.find? other ≠ some entry := by
      rcases h.before with hfile | ⟨hnone, -⟩
      · rw [hfile]
        exact fun heq => hother number (Option.some.inj heq).symm
      · rw [hnone]
        exact nofun
    rw [h.after]
    exact iff_of_false (fun heq => hother number (Option.some.inj heq).symm) hold
  · rw [h.kept hne]

/-- Writing a file changes no directory and no link. -/
theorem samePaths : SamePaths d d' where
  working := h.working.symm
  directory _ := (h.find?_iff (by simp)).symm
  link _ _ := (h.find?_iff (by simp)).symm

/-- A file keeps its names. -/
theorem find?_file (hfile : d.find? other = some (.file n)) :
    d'.find? other = some (.file n) := by
  by_cases hne : other = names
  · subst hne
    rcases h.before with hbefore | ⟨hnone, -⟩
    · rw [h.after, ← hbefore, hfile]
    · rw [hnone] at hfile
      contradiction
  · rw [h.kept hne, hfile]

end Wrote

/-! ## Files -/

/-- The file that a path leads to. -/
def file? (d : Disk) (path : String) : Option Nat :=
  match d.resolve path with
  | .error _ => none
  | .ok names =>
    match d.find? names with
    | some (.file number) => some number
    | _ => none

theorem file?_eq_some_iff : d.file? path = some number ↔
    ∃ names, d.resolve path = .ok names ∧ d.find? names = some (.file number) := by
  rw [file?]
  cases d.resolve path with
  | error e => simp
  | ok names =>
      simp only [Except.ok.injEq, exists_eq_left']
      cases d.find? names with
      | none => simp
      | some entry => cases entry <;> simp

/-- Reading gives what the file at the path holds. -/
theorem read_eq_ok_iff :
    d.read path = .ok contents ↔
      ∃ number, d.file? path = some number ∧ d.contents number = contents := by
  simp only [file?_eq_some_iff]
  rw [read, Except.bind_eq_ok_iff]
  constructor
  · rintro ⟨names, hresolve, hread⟩
    split at hread
    · next number hfile => exact ⟨number, ⟨names, hresolve, hfile⟩, Except.ok.inj hread⟩
    · exact nomatch hread
    · exact nomatch hread
    · exact nomatch hread
  · rintro ⟨number, ⟨names, hresolve, hfile⟩, rfl⟩
    exact ⟨names, hresolve, by rw [hfile]⟩

/-- A file that was written is where its path leads. -/
theorem exists_wrote (h : d.write path contents = .ok d') :
    dropSlashes path = path ∧
      ∃ names number, d.resolve path = .ok names ∧ Wrote d names number contents d' := by
  rw [write, Except.bind_eq_ok_iff] at h
  obtain ⟨_, -, h⟩ := h
  split at h
  · obtain ⟨_, -, herror⟩ := Except.bind_eq_ok_iff.mp h
    exact nomatch herror
  · next hslash =>
    obtain ⟨names, hresolve, h⟩ := Except.bind_eq_ok_iff.mp h
    refine ⟨not_not.mp hslash, names, ?_⟩
    split at h
    · next number hfile =>
      obtain rfl := Except.ok.inj h
      exact ⟨number, hresolve, wrote_fill hfile contents⟩
    · exact nomatch h
    · exact nomatch h
    · next hfree =>
      obtain rfl := Except.ok.inj h
      exact ⟨d.fresh, hresolve, wrote_create hfree contents⟩

theorem ne_empty_of_write (h : d.write path contents = .ok d') : path ≠ "" := by
  obtain ⟨-, names, number, hresolve, -⟩ := exists_wrote h
  exact ne_empty_of_resolve hresolve

/-- A path that led to a file leads to it still. -/
theorem Wrote.file? (h : Wrote d names number contents d') (hfile : d.file? path = some n) :
    d'.file? path = some n := by
  obtain ⟨names, hresolve, hentry⟩ := file?_eq_some_iff.mp hfile
  exact file?_eq_some_iff.mpr ⟨names, h.samePaths.resolve hresolve, h.find?_file hentry⟩

/-- The path that was written to leads to the file that was written. -/
theorem Wrote.file?_self (h : Wrote d names number contents d')
    (hpath : d.resolve path = .ok names) : d'.file? path = some number :=
  file?_eq_some_iff.mpr ⟨names, h.samePaths.resolve hpath, h.after⟩

/-- What was written is read again. -/
theorem read_of_write (h : d.write path contents = .ok d') : d'.read path = .ok contents := by
  obtain ⟨-, names, number, hresolve, hwrote⟩ := exists_wrote h
  exact read_eq_ok_iff.mpr ⟨number, hwrote.file?_self hresolve, hwrote.written⟩

/-- A file is read as before when another one is written, unless both paths lead
to the same file. -/
theorem read_of_write_other {other : String} {written : List Byte}
    (hread : d.read path = .ok contents) (h : d.write other written = .ok d') :
    d'.read path = .ok (if d'.file? path = d'.file? other then written else contents) := by
  obtain ⟨n, hfile, hcontents⟩ := read_eq_ok_iff.mp hread
  obtain ⟨-, names, number, hresolve, hwrote⟩ := exists_wrote h
  have hpath := hwrote.file? hfile
  refine read_eq_ok_iff.mpr ⟨n, hpath, ?_⟩
  rw [hpath, hwrote.file?_self hresolve]
  by_cases hsame : n = number
  · rw [if_pos (congrArg some hsame), hsame, hwrote.written]
  · rw [if_neg fun heq => hsame (Option.some.inj heq), hwrote.others hsame, hcontents]

/-! ## Names of one file -/

/-- A path is no link itself, and the file that it stands for has no other
name. -/
def Single (d : Disk) (path : String) : Prop :=
  ∀ names, d.locate path = .ok names →
    (∀ target, d.find? names ≠ some (.link target)) ∧
      ∀ number other, d.find? names = some (.file number) →
        d.find? other = some (.file number) → other = names

/-- Writing a file makes no link and gives no file a second name. -/
theorem Wrote.single (h : Wrote d names number contents d') (hpath : path ≠ "")
    (hsingle : d.Single path) : d'.Single path := by
  intro place hplace
  obtain ⟨hplain, hone⟩ := hsingle place (h.samePaths.symm.locate hpath hplace)
  refine ⟨fun target => mt (h.find?_iff (by simp)).mp (hplain target), ?_⟩
  intro n other hfile hother
  -- the names that were written stand for their own file, or for a new one
  have hold {place' : List String} (hfile' : d'.find? place' = some (.file n))
      (hne : place' ≠ names) : d.find? place' = some (.file n) := by
    rw [← h.kept hne, hfile']
  have hnumber {place' : List String} (hfile' : d'.find? place' = some (.file n))
      (hsame : place' = names) : number = n := by
    rw [hsame, h.after] at hfile'
    exact Entry.file.inj (Option.some.inj hfile')
  by_cases hp : place = names
  · by_cases ho : other = names
    · rw [ho, hp]
    · obtain rfl := hnumber hfile hp
      rcases h.before with hbefore | ⟨-, hfresh⟩
      · exact hone number other (hp ▸ hbefore) (hold hother ho)
      · exact absurd (hold hother ho) (hfresh other)
  · by_cases ho : other = names
    · obtain rfl := hnumber hother ho
      rcases h.before with hbefore | ⟨-, hfresh⟩
      · exact hone number other (hold hfile hp) (ho ▸ hbefore)
      · exact absurd (hold hfile hp) (hfresh place)
    · exact hone n other (hold hfile hp) (hold hother ho)

/-- A path that stands alone does so after any write. -/
theorem single_of_write {other : String} (h : d.write path contents = .ok d') (hother : other ≠ "")
    (hsingle : d.Single other) : d'.Single other := by
  obtain ⟨-, names, number, -, hwrote⟩ := exists_wrote h
  exact hwrote.single hother hsingle

/-- A path with more behind its last name leads to another file, unless a link or
a second name says otherwise. -/
theorem file?_append_ne {suffix : String} (hslash : '/' ∉ suffix.toList)
    (hname : ∃ c ∈ suffix.toList, c ≠ '.') (hsingle : d.Single path)
    (hsingle' : d.Single (path ++ suffix)) (hfile : d.file? path = some n) :
    d.file? (path ++ suffix) ≠ some n := by
  intro hmore
  obtain ⟨names, hresolve, hentry⟩ := file?_eq_some_iff.mp hfile
  obtain ⟨names', hresolve', hentry'⟩ := file?_eq_some_iff.mp hmore
  obtain ⟨place, hplace, hfound⟩ := exists_locate hresolve
  obtain ⟨place', hplace', hfound'⟩ := exists_locate hresolve'
  obtain ⟨hplain, hone⟩ := hsingle place hplace
  obtain rfl := hfound hplain
  obtain rfl := hfound' (hsingle' place' hplace').1
  exact locate_append_ne hslash hname (ne_empty_of_resolve hresolve) hplace hplace'
    (hone n names' hentry hentry')

/-! ## Removal -/

/-- A file or a link is removed where its path stands, unless the path ends with
a slash. -/
theorem remove_eq_ok_iff :
    d.remove path = .ok d' ↔
      checkPath path = .ok () ∧ dropSlashes path = path ∧ ∃ names, d.locate path = .ok names ∧
        d.find? names ≠ none ∧ d.find? names ≠ some .directory ∧
          { d with tree := d.tree.filter (·.1 != names) } = d' := by
  rw [remove, Except.bind_eq_ok_iff]
  constructor
  · rintro ⟨⟨⟩, hcheck, h⟩
    obtain ⟨names, hlocate, h⟩ := Except.bind_eq_ok_iff.mp h
    split at h
    · exact nomatch h
    · next entry hdirectory hentry =>
      split at h
      · exact nomatch h
      · next hslash =>
        rw [not_not.mp hslash] at hlocate
        exact ⟨hcheck, not_not.mp hslash, names, hlocate, by simp [hentry],
          by simpa [hentry] using hdirectory, Except.ok.inj h⟩
    · exact nomatch h
  · rintro ⟨hcheck, hslash, names, hlocate, hsome, hfree, rfl⟩
    refine ⟨(), hcheck, Except.bind_eq_ok_iff.mpr ⟨names, by rw [hslash, hlocate], ?_⟩⟩
    split
    · next hdirectory => exact absurd hdirectory hfree
    · rw [if_neg (not_not.mpr hslash)]
    · next hnone => exact absurd hnone hsome

/-- A file that can be read can be removed, unless its path asks for a
directory. -/
theorem exists_remove (hslash : dropSlashes path = path) (h : d.read path = .ok contents) :
    ∃ d', d.remove path = .ok d' := by
  obtain ⟨number, hfile, -⟩ := read_eq_ok_iff.mp h
  obtain ⟨found, hresolve, hentry⟩ := file?_eq_some_iff.mp hfile
  obtain ⟨names, hlocate, hfound⟩ := exists_locate hresolve
  -- where there is no link, the path stands for the file itself
  have hne : ∀ entry : Option Entry, (∀ target, entry ≠ some (.link target)) →
      entry ≠ some (.file number) → d.find? names ≠ entry := by
    rintro _ hplain hother rfl
    rw [hfound hplain] at hentry
    exact hother hentry
  exact ⟨_, remove_eq_ok_iff.mpr ⟨(resolve_eq_ok_iff.mp hresolve).1, hslash, names, hlocate,
    hne none (by simp) (by simp), hne (some .directory) (by simp) (by simp), rfl⟩⟩

/-- There is nothing left where a file was removed. -/
theorem contains_of_remove (h : d.remove path = .ok d') : d'.contains path = false := by
  obtain ⟨-, -, names, hlocate, -, hfree, rfl⟩ := remove_eq_ok_iff.mp h
  have hgone := unnamed_filter hfree
  rw [contains]
  split
  · next found hresolve =>
    obtain ⟨names', hlocate', hfound⟩ := exists_locate hresolve
    have hsame := hgone.locate (ne_empty_of_resolve hresolve) hlocate'
    obtain rfl := Except.ok.inj (hlocate.symm.trans hsame)
    rw [hfound (by rw [hgone.gone]; exact nofun), hgone.gone, Option.isSome_none]
  · rfl

end StackRisc.Disk
