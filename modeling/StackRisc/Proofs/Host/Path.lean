import StackRisc.FileSystem
import StackRisc.Proofs.Except
import StackRisc.Proofs.Source.Reading
import StackRisc.Proofs.Text.Blank

/-!
# StackRisc.Proofs.Host.Path

Where the paths of a program lead.  A path that is read under a directory of
the host keeps the components of the directory and adds names to them, so it
leads to the directory or below it:

* `Path.components_append` — the components of two paths with a slash between;
* `Path.components_join` — the components of a joined path;
* `FileSystem.isContained_iff` — which paths are read at all;
* `FileSystem.rooted_read_below` — all of it for reading a file.
-/

namespace StackRisc

namespace Path

open Text

variable {path root front : String}

/-! ## Segments -/

/-- Every path has a segment, if only an empty one. -/
theorem segments_ne_nil (path : String) : segments path ≠ [] := by
  simp [segments, pieces_ne_nil]

/-- A slash cuts a path into two, with their own segments. -/
theorem segments_append (front rest : String) :
    segments (front ++ "/" ++ rest) = segments front ++ segments rest := by
  have hsplit : (front ++ "/" ++ rest).toList = front.toList ++ '/' :: rest.toList := by simp
  rw [segments, hsplit, pieces_append_cons, List.map_append, segments, segments]

/-- More text without a slash goes to the last segment. -/
theorem exists_segments_append {suffix : String} (h : '/' ∉ suffix.toList) (path : String) :
    ∃ front last, segments path = front ++ [last] ∧
      segments (path ++ suffix) = front ++ [last ++ suffix] := by
  obtain ⟨front, last, hpath, hmore⟩ := exists_pieces_append h path.toList
  refine ⟨front.map String.ofList, String.ofList last, ?_, ?_⟩
  · rw [segments, hpath, List.map_append, List.map_singleton]
  · rw [segments, String.toList_append, hmore, List.map_append, List.map_singleton,
      String.ofList_append, String.ofList_toList]

/-- A path is empty, starts with a slash, or has a first segment that is not
empty. -/
theorem segments_cases (path : String) :
    path = "" ∨ (∃ rest, path = "/" ++ rest ∧ segments path = "" :: segments rest) ∨
      (¬(∃ rest, path = "/" ++ rest) ∧
        ∃ first rest, first ≠ "" ∧ segments path = first :: rest) := by
  cases h : path.toList with
  | nil => exact .inl (String.toList_eq_nil_iff.mp h)
  | cons c cs =>
      by_cases hc : c = '/'
      · have hpath : path = "/" ++ String.ofList cs := by
          refine String.toList_inj.mp ?_
          simp [h, hc]
        refine .inr (.inl ⟨_, hpath, ?_⟩)
        rw [hpath]
        exact segments_append "" _
      · refine .inr (.inr ⟨?_, ?_⟩)
        · rintro ⟨rest, rfl⟩
          simp at h
          exact hc h.1.symm
        · rw [segments, h, pieces, if_neg hc]
          split
          · exact ⟨_, _, by simp, rfl⟩
          · exact ⟨_, _, by simp, rfl⟩

/-- A path from the top starts with a slash. -/
theorem isAbsolute_iff : isAbsolute path ↔ ∃ rest, path = "/" ++ rest := by
  rw [isAbsolute, startsWith_iff]

theorem endsWith_slash_iff : path.endsWith "/" ↔ ∃ front, path = front ++ "/" := by
  rw [← String.endsWith_toSlice, String.Slice.endsWith_string_iff, String.copy_toSlice]
  constructor
  · rintro ⟨front, h⟩
    exact ⟨String.ofList front, String.toList_inj.mp (by simpa using h.symm)⟩
  · rintro ⟨front, rfl⟩
    exact ⟨front.toList, by simp⟩

/-! ## Components -/

@[simp] theorem component?_empty : component? "" = none := rfl

@[simp] theorem component?_here : component? "." = none := rfl

/-- The components of the first segment of a path. -/
def frontComponents (first : String) (rest : List String) : List Component :=
  if first = "" then (if rest = [] then [] else [.root])
  else if first = "." then [.here]
  else (component? first).toList

/-- The first segment of a path is read apart from the others. -/
theorem components_of_segments {first : String} {rest : List String}
    (h : segments path = first :: rest) :
    components path = frontComponents first rest ++ rest.filterMap component? := by
  rw [components, h]
  rfl

/-- More segments behind a path that has several add their own components. -/
theorem components_append (front rest : String) :
    components (front ++ "/" ++ rest) =
      components (front ++ "/") ++ (segments rest).filterMap component? := by
  have hempty : front ++ "/" = front ++ "/" ++ "" := by simp
  cases h : segments front with
  | nil => exact absurd h (segments_ne_nil front)
  | cons first others =>
      have hrest := segments_append front rest
      have hfront := segments_append front ""
      rw [h, List.cons_append] at hrest hfront
      rw [components_of_segments hrest, hempty, components_of_segments hfront]
      -- the first segment has others behind it on both sides
      have hsame : frontComponents first (others ++ segments rest) =
          frontComponents first (others ++ segments "") := by
        simp [frontComponents, segments_ne_nil]
      rw [hsame, List.filterMap_append, List.filterMap_append, List.append_assoc,
        List.append_assoc]
      rfl

/-- A slash at the end of a path carries no meaning. -/
theorem components_slash (h : front ≠ "") : components (front ++ "/") = components front := by
  have hslash : segments (front ++ "/") = segments front ++ [""] := by
    simpa [segments, pieces] using segments_append front ""
  rcases segments_cases front with hempty | ⟨rest, -, hsegments⟩ | ⟨-, first, rest, hfirst, hsegments⟩
  · exact absurd hempty h
  · rw [hsegments] at hslash
    rw [components_of_segments hslash, components_of_segments hsegments]
    simp [frontComponents, segments_ne_nil]
  · rw [hsegments] at hslash
    rw [components_of_segments hslash, components_of_segments hsegments]
    simp [frontComponents, hfirst]

/-- A path that starts neither with a slash nor with `.` has the components of
its segments. -/
theorem components_eq_filterMap (habsolute : ¬∃ rest, path = "/" ++ rest)
    (hhere : (segments path).head? ≠ some ".") :
    components path = (segments path).filterMap component? := by
  rcases segments_cases path with rfl | ⟨rest, hrest, -⟩ | ⟨-, first, rest, hfirst, hsegments⟩
  · rfl
  · exact absurd ⟨rest, hrest⟩ habsolute
  · have hdot : first ≠ "." := by
      rintro rfl
      exact hhere (by rw [hsegments, List.head?_cons])
    rw [components_of_segments hsegments, hsegments, frontComponents, if_neg hfirst, if_neg hdot,
      List.filterMap_cons]
    cases component? first <;> rfl

/-- A path that is joined to a directory adds the components of its segments. -/
theorem components_join (habsolute : ¬∃ rest, path = "/" ++ rest)
    (hhere : (segments path).head? ≠ some ".") (root : String) :
    components (join root path) = components root ++ (segments path).filterMap component? := by
  have hrelative : ¬isAbsolute path := mt isAbsolute_iff.mp habsolute
  by_cases hroot : root = ""
  · rw [join, if_pos (.inr hroot), components_eq_filterMap habsolute hhere, hroot]
    rfl
  · rw [join, if_neg (not_or.mpr ⟨hrelative, hroot⟩)]
    split
    · next hslash =>
      obtain ⟨front, rfl⟩ := endsWith_slash_iff.mp hslash
      exact components_append front path
    · rw [components_append, components_slash hroot]

/-- Segments without `..` are names, apart from those that carry no meaning. -/
theorem filterMap_component? {segs : List String} (h : ".." ∉ segs) :
    segs.filterMap component? = (segs.filter fun s => s ≠ "" ∧ s ≠ ".").map .name := by
  induction segs with
  | nil => rfl
  | cons first segs ih =>
      rw [List.mem_cons, not_or] at h
      rw [List.filterMap_cons, List.filter_cons, ih h.2, component?]
      by_cases hfirst : first = "" ∨ first = "."
      · rw [if_pos hfirst, if_neg (by simpa [or_iff_not_imp_left] using hfirst)]
      · rw [if_neg hfirst, if_neg (Ne.symm h.1), if_pos (by simpa [not_or] using hfirst)]
        rfl

/-- A path may lead out of the directory that it is taken in: it starts with a
slash or with `.`, or a segment goes up. -/
def Escapes (path : String) : Prop :=
  (∃ rest, path = "/" ++ rest) ∨ (segments path).head? = some "." ∨ ".." ∈ segments path

/-- A path that does not escape consists of names. -/
theorem components_of_not_escapes (h : ¬Escapes path) :
    components path = ((segments path).filter fun s => s ≠ "" ∧ s ≠ ".").map .name := by
  simp only [Escapes, not_or] at h
  rw [components_eq_filterMap h.1 h.2.1, filterMap_component? h.2.2]

/-- A path that escapes has a component that is no name. -/
theorem exists_of_escapes (h : Escapes path) :
    ∃ c ∈ components path, ∀ text, c ≠ .name text := by
  rcases h with ⟨rest, rfl⟩ | h | h
  · have hsegments : segments ("/" ++ rest) = "" :: segments rest := segments_append "" rest
    refine ⟨.root, ?_, by simp⟩
    simp [components_of_segments hsegments, frontComponents, segments_ne_nil]
  · obtain ⟨rest, hsegments⟩ := List.head?_eq_some_iff.mp h
    refine ⟨.here, ?_, by simp⟩
    simp [components_of_segments hsegments, frontComponents]
  · cases hsegments : segments path with
    | nil => exact absurd hsegments (segments_ne_nil path)
    | cons first rest =>
        refine ⟨.parent, ?_, by simp⟩
        rw [components_of_segments hsegments, List.mem_append]
        rw [hsegments] at h
        rcases List.mem_cons.mp h with rfl | h
        · exact .inl (by simp [frontComponents, component?])
        · exact .inr (List.mem_filterMap.mpr ⟨"..", h, rfl⟩)

end Path

namespace FileSystem

open StackRisc.Path

variable {path : String}

/-- A path is read exactly if it does not escape. -/
theorem isContained_iff : isContained path ↔ ¬Escapes path := by
  constructor
  · intro hcontained hescapes
    obtain ⟨c, hc, hname⟩ := exists_of_escapes hescapes
    have hplain := List.all_eq_true.mp hcontained c hc
    cases c with
    | name text => exact hname text rfl
    | root | here | parent => contradiction
  · intro h
    rw [isContained, components_of_not_escapes h]
    simp

/-- Reading under a directory of the host.  A path is refused, whatever the
host would say, exactly if it starts with a slash, its first segment is `.` or
a segment is `..`; any other path is handed to the host behind the directory,
and what the host reads has the components of the directory and then the
segments of the path, apart from those that carry no meaning, all as names. -/
theorem rooted_read_below (root path : String) (read : String → Except HostError (List Byte)) :
    ((rooted root read).read path = .error (.outside path) ↔
      (∃ rest, path = "/" ++ rest) ∨ (segments path).head? = some "." ∨ ".." ∈ segments path) ∧
    (¬((∃ rest, path = "/" ++ rest) ∨ (segments path).head? = some "." ∨
        ".." ∈ segments path) →
      (rooted root read).read path = (read (join root path)).mapError .host ∧
      components (join root path) = components root ++
        ((segments path).filter fun s => s ≠ "" ∧ s ≠ ".").map .name) := by
  have hread {path : String} (h : ¬Escapes path) :
      (rooted root read).read path = (read (join root path)).mapError .host :=
    if_pos (isContained_iff.mpr h)
  refine ⟨⟨fun hrefused => ?_, fun h => if_neg (mt isContained_iff.mp (not_not.mpr h))⟩,
    fun h => ⟨hread h, ?_⟩⟩
  · by_contra h
    rw [hread h, Except.mapError_eq_error_iff] at hrefused
    obtain ⟨cause, -, hcause⟩ := hrefused
    contradiction
  · simp only [not_or] at h
    rw [components_join h.1 h.2.1, filterMap_component? h.2.2]

/-- A path with empty and idle segments, below a directory with a slash at its
end. -/
theorem rooted_read_below_levels :
    (rooted "data/" fun _ => .ok [7]).read "levels//./a.bin" = .ok [7] ∧
      components (join "data/" "levels//./a.bin") =
        components "data/" ++ [.name "levels", .name "a.bin"] := by
  have hrelative : ¬∃ rest, "levels//./a.bin" = "/" ++ rest := by
    rintro ⟨rest, h⟩
    have hlist := congrArg String.toList h
    simp at hlist
  obtain ⟨hread, hbelow⟩ := (rooted_read_below "data/" "levels//./a.bin" fun _ => .ok [7]).2
    (by simp only [not_or]; exact ⟨hrelative, by decide +kernel, by decide +kernel⟩)
  refine ⟨hread, hbelow.trans ?_⟩
  decide +kernel

end FileSystem

end StackRisc
