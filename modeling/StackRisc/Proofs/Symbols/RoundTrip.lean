import StackRisc.Symbols.Json
import StackRisc.Proofs.Json.Reading
import StackRisc.Proofs.NameTable

/-!
# StackRisc.Proofs.Symbols.RoundTrip

Symbols that are written as JSON are read back as they were, whatever their
names and numbers are:

* `Symbols.entriesFrom_entry`, `Symbols.entriesFrom_later` — the entries of a
  table, one after the other;
* `Symbols.table_encodeTable` — a table, also without entries;
* `Symbols.ofJson_toJson` — all symbols.
-/

namespace StackRisc

namespace Symbols

open Json Text

/-! ## Entries -/

variable {α : Type}

/-- How the entries of an object go on. -/
def laterEntries (es : List (String × Int)) : List Char :=
  if es.isEmpty then [] else ',' :: encodeEntries es

/-- The first entry is written without a comma. -/
theorem encodeEntries_cons (e : String × Int) (es : List (String × Int)) :
    encodeEntries (e :: es) = encodeEntries.entry e ++ laterEntries es := by
  cases es with
  | nil => simp [encodeEntries, laterEntries]
  | cons e' es => rfl

/-- Later entries take a character each, at least. -/
theorem length_le_laterEntries (es : List (String × Int)) :
    es.length ≤ (laterEntries es).length := by
  induction es with
  | nil => exact Nat.le_refl 0
  | cons e es ih =>
      have hcons : laterEntries (e :: es) = ',' :: encodeEntries (e :: es) := rfl
      rw [hcons, encodeEntries_cons, List.length_cons, List.length_cons, List.length_append]
      omega

/-- The values of a kind are written as integers that the kind reads. -/
structure EntryKind.Reads (kind : EntryKind α) (toInt : α → Int) : Prop where
  low (a : α) : kind.low ≤ toInt a
  high (a : α) : toInt a ≤ kind.high
  ofInt (a : α) : kind.ofInt (toInt a) = a
  min : -9223372036854775808 ≤ kind.low
  max : kind.high ≤ 9223372036854775807

/-- Offsets of labels are read back. -/
theorem labelKind_reads : labelKind.Reads fun a => (a.toNat : Int) where
  low _ := Int.natCast_nonneg _
  high a := by
    have hlt := a.toNat_lt
    show (a.toNat : Int) ≤ 4294967295
    omega
  ofInt a := UInt32.ofNat_toNat
  min := by decide
  max := by decide

/-- Values of variables are read back, the negative ones too. -/
theorem variableKind_reads : variableKind.Reads Int32.toInt where
  low a := a.minValue_le_toInt
  high a := a.toInt_le
  ofInt a := Int32.ofInt_toInt a
  min := by decide
  max := by decide

section

variable {kind : EntryKind α} {toInt : α → Int}

/-- An entry is read back, the first one or one behind a comma. -/
theorem entriesFrom_entry (hk : kind.Reads toInt) (first : Bool) (name : String) (a : α)
    {rest : List Char} (hrest : NumberEnds rest) (fuel : Nat) (t : NameTable α) (offset : Nat) :
    ∃ offset', entriesFrom kind (fuel + 1) first t
        ⟨offset, (if first then [] else [',']) ++ (encodeEntries.entry (name, toInt a) ++ rest)⟩ =
      entriesFrom kind fuel false (t.insert name a) ⟨offset', rest⟩ := by
  have hgap : ∀ c ∈ "\n    ".toList, isSpace c = true := List.all_eq_true.mp (by decide)
  have hblank : ∀ c ∈ [' '], isSpace c = true := List.all_eq_true.mp (by decide)
  have hentry : encodeEntries.entry (name, toInt a) ++ rest =
      "\n    ".toList ++ (encodeText name ++
        (':' :: ([' '] ++ ((toString (toInt a)).toList ++ rest)))) := by
    have hcolon : ": ".toList = [':', ' '] := by decide
    unfold encodeEntries.entry
    simp only [hcolon, List.append_assoc, List.cons_append, List.nil_append]
  obtain ⟨offset₁, hkey⟩ : Leaves (nextKey? first ⟨offset, (if first then [] else [',']) ++
      (encodeEntries.entry (name, toInt a) ++ rest)⟩) (some name)
        (':' :: ([' '] ++ ((toString (toInt a)).toList ++ rest))) := by
    rw [hentry]
    cases first with
    | true => exact nextKey?_first hgap name offset
    | false => exact nextKey?_later hgap name offset
  obtain ⟨offset₂, hinteger⟩ := integer_toString (hk.low a) (hk.high a)
    (Int.le_trans hk.min (hk.low a)) (Int.le_trans (hk.high a) hk.max) hblank
    hrest kind.name (offset₁ + 0 + 1)
  refine ⟨offset₂, ?_⟩
  rw [entriesFrom, hkey]
  simp only [bind, Except.bind, colon_cons, hinteger, hk.ofInt]

/-- What follows an entry is no part of its integer. -/
theorem numberEnds_laterEntries (es : List (String × Int)) (rest : List Char) :
    NumberEnds (laterEntries es ++ '\n' :: rest) := by
  cases es with
  | nil =>
      rintro _ ⟨⟩
      decide
  | cons e es =>
      rintro _ ⟨⟩
      decide

/-- Entries behind others are read up to the end of the object. -/
theorem entriesFrom_later (hk : kind.Reads toInt) (es : List (String × α)) {fuel : Nat}
    (hfuel : es.length < fuel) (t : NameTable α) (offset : Nat) (rest : List Char) :
    Leaves (entriesFrom kind fuel false t
        ⟨offset, laterEntries (es.map fun e => (e.1, toInt e.2)) ++
          '\n' :: ([' ', ' '] ++ '\x7d' :: rest)⟩)
      (es.foldl (fun t e => t.insert e.1 e.2) t) rest := by
  induction es generalizing fuel t offset with
  | nil =>
      obtain ⟨fuel, rfl⟩ := Nat.exists_eq_add_one_of_ne_zero (Nat.ne_zero_of_lt hfuel)
      have hgap : ∀ c ∈ ['\n', ' ', ' '], isSpace c = true := List.all_eq_true.mp (by decide)
      exact (nextKey?_end hgap false offset).bind
        fun offset => leaves_ok t (offset + 1) rest
  | cons e es ih =>
      obtain ⟨fuel, rfl⟩ := Nat.exists_eq_add_one_of_ne_zero (Nat.ne_zero_of_lt hfuel)
      obtain ⟨offset', hstep⟩ := entriesFrom_entry hk false e.1 e.2
        (numberEnds_laterEntries (es.map fun e => (e.1, toInt e.2))
          ([' ', ' '] ++ '\x7d' :: rest)) fuel t offset
      have hlater : laterEntries ((e :: es).map fun e => (e.1, toInt e.2)) =
          ',' :: (encodeEntries.entry (e.1, toInt e.2) ++
            laterEntries (es.map fun e => (e.1, toInt e.2))) := by
        rw [List.map_cons, ← encodeEntries_cons]
        rfl
      rw [hlater, List.cons_append, List.append_assoc]
      rw [if_neg (by decide), List.singleton_append] at hstep
      rw [hstep]
      exact ih (Nat.lt_of_succ_lt_succ hfuel) _ offset'

/-- A table is read back, behind a blank. -/
theorem table_encodeTable (hk : kind.Reads toInt) (t : NameTable α) (offset : Nat)
    (rest : List Char) :
    Leaves (table kind
        ⟨offset, ' ' :: (encodeTable (t.entries.map fun e => (e.1, toInt e.2)) ++ rest)⟩)
      t rest := by
  have hrebuilt := t.ofList_entries
  rw [NameTable.ofList] at hrebuilt
  cases hes : t.entries with
  | nil =>
      rw [hes, List.foldl_nil] at hrebuilt
      have hgap : ∀ c ∈ [], isSpace c = true := List.forall_mem_nil _
      exact (nextKey?_end hgap true (offset + 1 + 1)).bind
        fun offset => hrebuilt ▸ leaves_ok _ (offset + 1) rest
  | cons e es =>
      rw [hes, List.foldl_cons] at hrebuilt
      -- the text behind the opening bracket
      have htext : encodeTable ((e :: es).map fun e => (e.1, toInt e.2)) ++ rest =
          '\x7b' :: (encodeEntries.entry (e.1, toInt e.2) ++
            (laterEntries (es.map fun e => (e.1, toInt e.2)) ++
              '\n' :: ([' ', ' '] ++ '\x7d' :: rest))) := by
        rw [List.map_cons, encodeTable, encodeEntries_cons]
        simp
      have hends := numberEnds_laterEntries (es.map fun e => (e.1, toInt e.2))
        ([' ', ' '] ++ '\x7d' :: rest)
      have hlength := length_le_laterEntries (es.map fun e => (e.1, toInt e.2))
      rw [List.length_map] at hlength
      rw [htext]
      obtain ⟨offset', hstep⟩ := entriesFrom_entry hk true e.1 e.2 hends
        ('\x7b' :: (encodeEntries.entry (e.1, toInt e.2) ++
            (laterEntries (es.map fun e => (e.1, toInt e.2)) ++
              '\n' :: ([' ', ' '] ++ '\x7d' :: rest)))).length .empty (offset + 1 + 1)
      show Leaves (entriesFrom kind _ true .empty ⟨offset + 1 + 1, _⟩) t rest
      refine hstep ▸ hrebuilt ▸ entriesFrom_later hk es ?_ _ offset' rest
      simp only [List.length_cons, List.length_append]
      omega

end

/-! ## Symbols -/

/-- The labels of symbols as they are written. -/
def encodeLabels (s : Symbols) : List Char :=
  encodeTable (s.labels.entries.map fun e => (e.1, (e.2.toNat : Int)))

/-- The variables of symbols as they are written. -/
def encodeVariables (s : Symbols) : List Char :=
  encodeTable (s.values.entries.map fun e => (e.1, e.2.toInt))

/-- The text of symbols, with its keys as string literals. -/
theorem encode_eq (s : Symbols) :
    s.encode = '\x7b' :: ("\n  ".toList ++ (encodeText "labels" ++
      (':' :: ' ' :: (s.encodeLabels ++ (',' :: ("\n  ".toList ++ (encodeText "variables" ++
        (':' :: ' ' :: (s.encodeVariables ++ ['\n', '\x7d']))))))))) := by
  have hlabels : "\x7b\n  \"labels\": ".toList =
      '\x7b' :: ("\n  ".toList ++ (encodeText "labels" ++ [':', ' '])) := by
    decide
  have hvariables : ",\n  \"variables\": ".toList =
      ',' :: ("\n  ".toList ++ (encodeText "variables" ++ [':', ' '])) := by
    decide
  have hend : "\n\x7d".toList = ['\n', '\x7d'] := by decide
  unfold encode encodeLabels encodeVariables
  simp only [hlabels, hvariables, hend, List.append_assoc, List.cons_append, List.nil_append]

/-- The fields of symbols are read back. -/
theorem fieldsFrom_encode (s : Symbols) (fuel offset : Nat) :
    Leaves (fieldsFrom (fuel + 3) true none none ⟨offset, s.encode.tail⟩) s [] := by
  have hgap : ∀ c ∈ "\n  ".toList, isSpace c = true := List.all_eq_true.mp (by decide)
  rw [encode_eq, List.tail_cons]
  refine (nextKey?_first hgap "labels" offset).bind fun offset => ?_
  show Leaves (table labelKind ⟨offset + 0 + 1, _⟩ >>= fun r =>
    fieldsFrom (fuel + 2) false (some r.1) none r.2) s []
  refine (table_encodeTable labelKind_reads s.labels _ _).bind fun offset => ?_
  refine (nextKey?_later hgap "variables" offset).bind fun offset => ?_
  show Leaves (table variableKind ⟨offset + 0 + 1, _⟩ >>= fun r =>
    fieldsFrom (fuel + 1) false (some s.labels) (some r.1) r.2) s []
  refine (table_encodeTable variableKind_reads s.values _ _).bind fun offset => ?_
  have hend : ∀ c ∈ ['\n'], isSpace c = true := List.all_eq_true.mp (by decide)
  exact (nextKey?_end hend false offset).bind
    fun offset => leaves_ok s (offset + 1) []

/-- Symbols are read back from the text that is written for them, whatever
their names and numbers are. -/
theorem ofJson_toJson (s : Symbols) : ofJson s.toJson = .ok s := by
  obtain ⟨fuel, hfuel⟩ : ∃ fuel, s.encode.length + 1 = fuel + 3 := by
    refine ⟨s.encode.length - 2, ?_⟩
    rw [encode_eq]
    simp only [List.length_cons, List.length_append]
    omega
  obtain ⟨offset, hfields⟩ := fieldsFrom_encode s fuel 1
  have hread : read (Cursor.ofText s.encode) = .ok (s, ⟨offset, []⟩) := by
    rw [← hfields, ← hfuel, encode_eq]
    rfl
  have hdecode : decode s.encode = .ok s := by
    rw [decode, hread]
    rfl
  rw [ofJson, toJson, String.toList_ofList, hdecode]
  rfl

example : ofJson (toJson ⟨.ofList [("A\"\\\n", 7), ("", 4294967295)], .ofList [("X", -1)]⟩) =
    .ok ⟨.ofList [("A\"\\\n", 7), ("", 4294967295)], .ofList [("X", -1)]⟩ := by
  decide +kernel

end Symbols

end StackRisc
