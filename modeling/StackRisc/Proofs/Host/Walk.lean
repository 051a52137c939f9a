import StackRisc.Host.Disk
import StackRisc.Proofs.Except
import StackRisc.Proofs.Host.Path

/-!
# StackRisc.Proofs.Host.Walk

Where paths lead on a disk, through directories and links, as a relation that
does not mention how many links are left:

* `Disk.Leads`, `Disk.follow_eq_ok_iff` — one rule for each kind of step;
* `Disk.Leads.split` — a path is followed piece by piece;
* `Disk.SamePaths` — disks on which all paths lead to the same names;
* `Disk.Unnamed` — what becomes of paths when a name is gone;
* `Disk.locate_eq_ok_iff`, `Disk.exists_locate` — where the last segment of a
  path stands, and what is behind it.
-/

namespace StackRisc.Disk

variable {d d' : Disk} {links : Nat} {names found : List String} {segments : List String}
  {segment path : String}

/-! ## Steps -/

/-- A directory is entered before anything else is done there. -/
theorem enter_bind_eq_ok_iff {α : Type} {f : Unit → Except HostError α} {a : α} :
    (d.enter names >>= f) = .ok a ↔ d.find? names = some .directory ∧ f () = .ok a := by
  rw [enter]
  cases d.find? names with
  | none => simp [bind, Except.bind]
  | some entry => cases entry <;> simp [bind, Except.bind]

/-- A step stays, goes up or goes down. -/
theorem step_cases (h : step names segment = .ok found) :
    found = names ∨ found = names.dropLast ∨ found = names ++ [segment] := by
  rw [step] at h
  split at h
  · exact .inl (Except.ok.inj h).symm
  · split at h
    · exact .inr (.inl (Except.ok.inj h).symm)
    · split at h
      · contradiction
      · exact .inr (.inr (Except.ok.inj h).symm)

/-- A segment that holds more than dots is a name. -/
theorem step_name (hname : ∃ c ∈ segment.toList, c ≠ '.') (h : step names segment = .ok found) :
    found = names ++ [segment] := by
  have hne {dots : String} (hdots : ∀ c ∈ dots.toList, c = '.') : segment ≠ dots := by
    rintro rfl
    obtain ⟨c, hmem, hc⟩ := hname
    exact hc (hdots c hmem)
  rw [step, if_neg (not_or.mpr ⟨hne (by simp), hne (by simp)⟩), if_neg (hne (by simp))] at h
  split at h
  · contradiction
  · exact (Except.ok.inj h).symm

/-! ## Following segments -/

/-- Segments lead from a directory to some names, through at most this many
links. -/
inductive Leads (d : Disk) : Nat → List String → List String → List String → Prop where
  | here {links : Nat} {names : List String} : Leads d links names [] names
  | step {links : Nat} {names next rest found : List String} {segment : String}
      (hdirectory : d.find? names = some .directory) (hstep : step names segment = .ok next)
      (hplain : ∀ target, d.find? next ≠ some (.link target))
      (hrest : Leads d links next rest found) : Leads d links names (segment :: rest) found
  | link {links : Nat} {names next rest found : List String} {segment target : String}
      (hdirectory : d.find? names = some .directory) (hstep : step names segment = .ok next)
      (hlink : d.find? next = some (.link target))
      (hrest : Leads d links (start names target).1 ((start names target).2 ++ rest) found) :
      Leads d (links + 1) names (segment :: rest) found

/-- What a walk does at its first segment. -/
theorem walk_cons_eq_ok_iff {onLink : List String → List String → Except HostError (List String)}
    {rest : List String} :
    d.walk onLink names (segment :: rest) = .ok found ↔
      d.find? names = some .directory ∧ ∃ next, step names segment = .ok next ∧
        ((∃ target, d.find? next = some (.link target) ∧
            onLink (start names target).1 ((start names target).2 ++ rest) = .ok found) ∨
          (∀ target, d.find? next ≠ some (.link target)) ∧
            d.walk onLink next rest = .ok found) := by
  rw [walk, enter_bind_eq_ok_iff, Except.bind_eq_ok_iff]
  refine and_congr_right fun _ => exists_congr fun next => and_congr_right fun _ => ?_
  cases d.find? next with
  | none => simp
  | some entry => cases entry <;> simp

/-- Following segments finds exactly where they lead. -/
theorem follow_eq_ok_iff : d.follow links names segments = .ok found ↔
    d.Leads links names segments found := by
  constructor
  · intro h
    induction links generalizing names segments with
    | zero =>
        induction segments generalizing names with
        | nil =>
            obtain rfl := Except.ok.inj h
            exact .here
        | cons segment rest ih =>
            obtain ⟨hdirectory, next, hstep, ⟨target, -, herror⟩ | ⟨hplain, hrest⟩⟩ :=
              walk_cons_eq_ok_iff.mp h
            · contradiction
            · exact .step hdirectory hstep hplain (ih hrest)
    | succ links ihlinks =>
        induction segments generalizing names with
        | nil =>
            obtain rfl := Except.ok.inj h
            exact .here
        | cons segment rest ih =>
            obtain ⟨hdirectory, next, hstep, ⟨target, hlink, hrest⟩ | ⟨hplain, hrest⟩⟩ :=
              walk_cons_eq_ok_iff.mp h
            · exact .link hdirectory hstep hlink (ihlinks hrest)
            · exact .step hdirectory hstep hplain (ih hrest)
  · intro h
    induction h with
    | @here links => cases links <;> rfl
    | @step links _ _ _ _ _ hdirectory hstep hplain _ ih =>
        cases links <;>
          exact walk_cons_eq_ok_iff.mpr ⟨hdirectory, _, hstep, .inr ⟨hplain, ih⟩⟩
    | link hdirectory hstep hlink _ ih =>
        exact walk_cons_eq_ok_iff.mpr ⟨hdirectory, _, hstep, .inl ⟨_, hlink, ih⟩⟩

/-- Segments lead to one place. -/
theorem Leads.unique {found' : List String} (h : d.Leads links names segments found)
    (h' : d.Leads links names segments found') : found = found' :=
  Except.ok.inj ((follow_eq_ok_iff.mpr h).symm.trans (follow_eq_ok_iff.mpr h'))

/-- Segments are followed one after the other; the first ones may use up some
of the links. -/
theorem Leads.split {front rest : List String} (h : d.Leads links names (front ++ rest) found) :
    ∃ links' middle, d.Leads links names front middle ∧ d.Leads links' middle rest found := by
  generalize hsegments : front ++ rest = segments at h
  induction h generalizing front with
  | here =>
      obtain ⟨rfl, rfl⟩ := List.append_eq_nil_iff.mp hsegments
      exact ⟨0, _, .here, .here⟩
  | step hdirectory hstep hplain hrest ih =>
      cases front with
      | nil =>
          obtain rfl := hsegments
          exact ⟨_, _, .here, .step hdirectory hstep hplain hrest⟩
      | cons segment front =>
          obtain ⟨rfl, rfl⟩ := List.cons.inj hsegments
          obtain ⟨links', middle, hfront, hmiddle⟩ := ih rfl
          exact ⟨links', middle, .step hdirectory hstep hplain hfront, hmiddle⟩
  | link hdirectory hstep hlink hrest ih =>
      cases front with
      | nil =>
          obtain rfl := hsegments
          exact ⟨_, _, .here, .link hdirectory hstep hlink hrest⟩
      | cons segment front =>
          obtain ⟨rfl, rfl⟩ := List.cons.inj hsegments
          -- what is left of the path stays behind the segments of the link
          obtain ⟨links', middle, hfront, hmiddle⟩ := ih (List.append_assoc ..)
          exact ⟨links', middle, .link hdirectory hstep hlink hfront, hmiddle⟩

/-- No path goes on where there is no directory. -/
theorem Leads.eq_of_not_directory (h : d.Leads links names segments found)
    (hnone : d.find? names ≠ some .directory) : found = names := by
  cases h with
  | here => rfl
  | step hdirectory => exact absurd hdirectory hnone
  | link hdirectory => exact absurd hdirectory hnone

/-! ## Paths on two disks -/

/-- Two disks have the same directories and the same links. -/
structure SamePaths (d d' : Disk) : Prop where
  working : d.working = d'.working
  directory (names : List String) :
    d.find? names = some .directory ↔ d'.find? names = some .directory
  link (names : List String) (target : String) :
    d.find? names = some (.link target) ↔ d'.find? names = some (.link target)

theorem SamePaths.symm (h : SamePaths d d') : SamePaths d' d where
  working := h.working.symm
  directory names := (h.directory names).symm
  link names target := (h.link names target).symm

/-- Where segments lead depends on the directories and the links alone. -/
theorem SamePaths.leads (h : SamePaths d d') (hleads : d.Leads links names segments found) :
    d'.Leads links names segments found := by
  induction hleads with
  | here => exact .here
  | step hdirectory hstep hplain _ ih =>
      exact .step ((h.directory _).mp hdirectory) hstep
        (fun target => mt (h.link _ target).mpr (hplain target)) ih
  | link hdirectory hstep hlink _ ih =>
      exact .link ((h.directory _).mp hdirectory) hstep ((h.link _ _).mp hlink) ih

/-- A disk has lost some names, which stood for no directory. -/
structure Unnamed (d : Disk) (names : List String) (d' : Disk) : Prop where
  working : d'.working = d.working
  free : d.find? names ≠ some .directory
  gone : d'.find? names = none
  kept {other : List String} (h : other ≠ names) : d'.find? other = d.find? other

/-- Paths lead where they led before, or to the names that are gone. -/
theorem Unnamed.leads {gone : List String} (h : Unnamed d gone d')
    (hleads : d'.Leads links names segments found) :
    d.Leads links names segments found ∨ found = gone := by
  have hkept {other : List String} {entry : Entry} (hentry : d'.find? other = some entry) :
      d.find? other = some entry := by
    have hne : other ≠ gone := by
      rintro rfl
      rw [h.gone] at hentry
      contradiction
    rw [← h.kept hne, hentry]
  induction hleads with
  | here => exact .inl .here
  | @step _ _ next _ _ _ hdirectory hstep hplain hrest ih =>
      by_cases hnext : next = gone
      · have hnone : d'.find? next ≠ some .directory := by
          rw [hnext, h.gone]
          exact nofun
        exact .inr ((hrest.eq_of_not_directory hnone).trans hnext)
      · refine ih.imp_left fun hrest => .step (hkept hdirectory) hstep (fun target => ?_) hrest
        rw [← h.kept hnext]
        exact hplain target
  | link hdirectory hstep hlink _ ih =>
      exact ih.imp_left fun hrest => .link (hkept hdirectory) hstep (hkept hlink) hrest

/-! ## Paths -/

/-- A path leads where its segments lead from its start. -/
theorem resolve_eq_ok_iff :
    d.resolve path = .ok names ↔
      checkPath path = .ok () ∧
        d.Leads maxLinks (start d.working path).1 (start d.working path).2 names := by
  rw [resolve, Except.bind_eq_ok_iff, ← follow_eq_ok_iff]
  constructor
  · rintro ⟨⟨⟩, hcheck, hfollow⟩
    exact ⟨hcheck, hfollow⟩
  · rintro ⟨hcheck, hfollow⟩
    exact ⟨(), hcheck, hfollow⟩

/-- A path leads to the same names on both disks. -/
theorem SamePaths.resolve (h : SamePaths d d') (hpath : d.resolve path = .ok names) :
    d'.resolve path = .ok names := by
  obtain ⟨hcheck, hleads⟩ := resolve_eq_ok_iff.mp hpath
  rw [h.working] at hleads
  exact resolve_eq_ok_iff.mpr ⟨hcheck, h.leads hleads⟩

theorem start_of_segments {base : List String} {first : String} {rest : List String}
    (h : Path.segments path = first :: rest) (hfirst : first ≠ "") :
    start base path = (base, first :: rest) := by
  rw [start, h]
  split
  · next heq => exact absurd (List.cons.inj heq).1 hfirst
  · rfl

/-- A path with more behind it starts in the same place, and differs in the last
segment. -/
theorem exists_start_append {suffix : String} (hslash : '/' ∉ suffix.toList) (hpath : path ≠ "")
    (base : List String) :
    ∃ top front last, start base path = (top, front ++ [last]) ∧
      start base (path ++ suffix) = (top, front ++ [last ++ suffix]) := by
  obtain ⟨front, last, hsegments, hmore⟩ := Path.exists_segments_append hslash path
  cases front with
  | nil =>
      have hlast : last ≠ "" := by
        rcases Path.segments_cases path with rfl | ⟨rest, -, htop⟩ | ⟨-, first, rest, hfirst, hrest⟩
        · exact absurd rfl hpath
        · rw [hsegments, List.nil_append] at htop
          exact absurd (List.cons.inj htop).2.symm (Path.segments_ne_nil rest)
        · rw [hsegments, List.nil_append] at hrest
          rwa [(List.cons.inj hrest).1]
      have hlast' : last ++ suffix ≠ "" := fun h => hlast (String.append_eq_empty_iff.mp h).1
      exact ⟨base, [], last, start_of_segments hsegments hlast, start_of_segments hmore hlast'⟩
  | cons first front =>
      by_cases hfirst : first = ""
      · subst hfirst
        exact ⟨[], front, last, by rw [start, hsegments]; rfl, by rw [start, hmore]; rfl⟩
      · exact ⟨base, first :: front, last, start_of_segments hsegments hfirst,
          start_of_segments hmore hfirst⟩

/-- A path has a last segment. -/
theorem exists_start (hpath : path ≠ "") (base : List String) :
    ∃ top front last, start base path = (top, front ++ [last]) := by
  have hslash : '/' ∉ "".toList := by simp
  obtain ⟨top, front, last, hstart, -⟩ := exists_start_append hslash hpath base
  exact ⟨top, front, last, hstart⟩

/-- The empty path leads nowhere. -/
theorem ne_empty_of_resolve (h : d.resolve path = .ok names) : path ≠ "" := by
  rintro rfl
  have hcheck := (resolve_eq_ok_iff.mp h).1
  simp [checkPath] at hcheck

/-- The directory before the last segment is where the others lead. -/
theorem parent_eq_ok_iff {top front directory : List String} {last : String}
    (hstart : start d.working path = (top, front ++ [last])) :
    d.parent path = .ok directory ↔
      d.Leads maxLinks top front directory ∧ d.find? directory = some .directory := by
  rw [parent, hstart]
  dsimp only
  rw [List.dropLast_concat, Except.bind_eq_ok_iff]
  simp only [enter_bind_eq_ok_iff, Except.pure_eq_ok_iff, follow_eq_ok_iff]
  constructor
  · rintro ⟨_, hleads, hdirectory, rfl⟩
    exact ⟨hleads, hdirectory⟩
  · rintro ⟨hleads, hdirectory⟩
    exact ⟨directory, hleads, hdirectory, rfl⟩

/-- A path itself stands where its last segment leads from the directory before
it. -/
theorem locate_eq_ok_iff {top front : List String} {last : String}
    (hstart : start d.working path = (top, front ++ [last])) :
    d.locate path = .ok names ↔
      ∃ directory, d.Leads maxLinks top front directory ∧
        d.find? directory = some .directory ∧ step directory last = .ok names := by
  rw [locate, Except.bind_eq_ok_iff]
  simp only [parent_eq_ok_iff hstart, hstart, List.getLast?_concat, Option.getD_some, and_assoc]

/-- A path that leads somewhere stands somewhere itself: there, or where a link
is. -/
theorem exists_locate (h : d.resolve path = .ok found) :
    ∃ names, d.locate path = .ok names ∧
      ((∀ target, d.find? names ≠ some (.link target)) → found = names) := by
  obtain ⟨top, front, last, hstart⟩ := exists_start (ne_empty_of_resolve h) d.working
  have hleads := (resolve_eq_ok_iff.mp h).2
  rw [hstart] at hleads
  obtain ⟨links', directory, hfront, hlast⟩ := hleads.split
  cases hlast with
  | step hdirectory hstep _ hrest =>
      cases hrest
      exact ⟨_, (locate_eq_ok_iff hstart).mpr ⟨_, hfront, hdirectory, hstep⟩, fun _ => rfl⟩
  | link hdirectory hstep hlink =>
      exact ⟨_, (locate_eq_ok_iff hstart).mpr ⟨_, hfront, hdirectory, hstep⟩,
        fun hplain => absurd hlink (hplain _)⟩

/-- A path stands in the same place on both disks. -/
theorem SamePaths.locate (h : SamePaths d d') (hpath : path ≠ "")
    (hlocate : d.locate path = .ok names) : d'.locate path = .ok names := by
  obtain ⟨top, front, last, hstart⟩ := exists_start hpath d.working
  obtain ⟨directory, hleads, hdirectory, hstep⟩ := (locate_eq_ok_iff hstart).mp hlocate
  rw [h.working] at hstart
  exact (locate_eq_ok_iff hstart).mpr
    ⟨directory, h.leads hleads, (h.directory directory).mp hdirectory, hstep⟩

/-- A path stands where it stood before a name was gone. -/
theorem Unnamed.locate {gone : List String} (h : Unnamed d gone d') (hpath : path ≠ "")
    (hlocate : d'.locate path = .ok names) : d.locate path = .ok names := by
  obtain ⟨top, front, last, hstart⟩ := exists_start hpath d'.working
  obtain ⟨directory, hleads, hdirectory, hstep⟩ := (locate_eq_ok_iff hstart).mp hlocate
  have hne : directory ≠ gone := by
    rintro rfl
    rw [h.gone] at hdirectory
    contradiction
  rw [h.working] at hstart
  exact (locate_eq_ok_iff hstart).mpr
    ⟨directory, (h.leads hleads).resolve_right hne, h.kept hne ▸ hdirectory, hstep⟩

/-- A path with more behind its last name stands elsewhere. -/
theorem locate_append_ne {suffix : String} {other : List String} (hslash : '/' ∉ suffix.toList)
    (hname : ∃ c ∈ suffix.toList, c ≠ '.') (hpath : path ≠ "") (hlocate : d.locate path = .ok names)
    (hmore : d.locate (path ++ suffix) = .ok other) : other ≠ names := by
  obtain ⟨top, front, last, hstart, hstart'⟩ := exists_start_append hslash hpath d.working
  obtain ⟨directory, hleads, -, hlast⟩ := (locate_eq_ok_iff hstart).mp hlocate
  obtain ⟨_, hleads', -, hlast'⟩ := (locate_eq_ok_iff hstart').mp hmore
  obtain rfl := hleads.unique hleads'
  have hdots : ∃ c ∈ (last ++ suffix).toList, c ≠ '.' := by
    obtain ⟨c, hmem, hc⟩ := hname
    exact ⟨c, by simp [hmem], hc⟩
  rw [step_name hdots hlast']
  obtain rfl | rfl | rfl := step_cases hlast
  · simp
  · intro heq
    have hlength := congrArg List.length heq
    simp at hlength
    omega
  · intro heq
    obtain ⟨c, hmem, -⟩ := hname
    have hlonger := congrArg (·.toList) (List.singleton_inj.mp (List.append_cancel_left heq))
    simp at hlonger
    simp [hlonger] at hmem

end StackRisc.Disk
