import StackRisc.Json.Value
import StackRisc.Symbols

/-!
# StackRisc.Symbols.Json

Symbols as a JSON text: an object of the fields `labels` and `variables`,
each an object of integers.  Read are also an array of the two, fields that
are not known, and fields in any order; of two entries for one name the
later one counts, and a field that is missing or repeated is refused.
-/

namespace StackRisc.Symbols

open Json Text

/-! ## Writing -/

/-- The entries of an object, one a line, with their indentation. -/
def encodeEntries : List (String × Int) → List Char
  | [] => []
  | [e] => entry e
  | e :: rest => entry e ++ ',' :: encodeEntries rest
where
  /-- A line break, the indentation, and one entry. -/
  entry (e : String × Int) : List Char :=
    "\n    ".toList ++ encodeText e.1 ++ ": ".toList ++ (toString e.2).toList

/-- An object of integers, as the value of a field. -/
def encodeTable (entries : List (String × Int)) : List Char :=
  if entries.isEmpty then "\x7b\x7d".toList
  else '\x7b' :: encodeEntries entries ++ "\n  \x7d".toList

/-- The symbols as an indented JSON text. -/
def encode (s : Symbols) : List Char :=
  "\x7b\n  \"labels\": ".toList
    ++ encodeTable (s.labels.entries.map fun e => (e.1, (e.2.toNat : Int)))
    ++ ",\n  \"variables\": ".toList
    ++ encodeTable (s.values.entries.map fun e => (e.1, e.2.toInt))
    ++ "\n\x7d".toList

/-- The symbols as an indented JSON text. -/
def toJson (s : Symbols) : String := String.ofList s.encode

/-! ## Reading tables -/

/-- Which integers a table holds, and how their kind is named. -/
structure EntryKind (α : Type) where
  low : Int
  high : Int
  name : String
  ofInt : Int → α

/-- Labels have offsets. -/
def labelKind : EntryKind Address := ⟨0, 4294967295, "u32", fun n => UInt32.ofNat n.toNat⟩

/-- Variables have words. -/
def variableKind : EntryKind Word := ⟨-2147483648, 2147483647, "i32", Int32.ofInt⟩

/-- Read the entries of an object up to its end. -/
def entriesFrom {α : Type} (kind : EntryKind α) : (fuel : Nat) → (first : Bool) → NameTable α →
    Cursor → Except Failure (NameTable α × Cursor)
  | 0, _, _, c => .error ⟨.endInObject, c.offset⟩
  | fuel + 1, first, t, c => do
    let (key, c) ← nextKey? first c
    match key with
    | none => pure (t, c.advance)
    | some key => do
      let c ← colon c
      let (n, c) ← integer kind.low kind.high kind.name c
      entriesFrom kind fuel false (t.insert key (kind.ofInt n)) c

/-- Read an object of integers. -/
def table {α : Type} (kind : EntryKind α) (c : Cursor) : Except Failure (NameTable α × Cursor) :=
  let c := skipSpace c
  match c.peek? with
  | none => .error ⟨.endInValue, c.offset⟩
  | some '\x7b' => entriesFrom kind (c.rest.length + 1) true .empty c.advance
  | some _ => .error (mismatch "a map" c)

/-! ## Reading symbols -/

/-- Where a refusal of the fields of an object is placed: past the closing
bracket if the object ends there. -/
def closingPlace (c : Cursor) : Nat :=
  let c := skipSpace c
  if c.peek? = some '\x7d' then c.offset + 1 else c.offset

/-- Read the fields of an object up to its end. -/
def fieldsFrom : (fuel : Nat) → (first : Bool) → Option (NameTable Address) →
    Option (NameTable Word) → Cursor → Except Failure (Symbols × Cursor)
  | 0, _, _, _, c => .error ⟨.endInObject, c.offset⟩
  | fuel + 1, first, labels, values, c => do
    let (key, c) ← nextKey? first c
    match key with
    | none =>
      match labels, values with
      | some labels, some values => pure ({ labels, values }, c.advance)
      | none, _ => .error ⟨.missingField "labels", closingPlace c⟩
      | some _, none => .error ⟨.missingField "variables", closingPlace c⟩
    | some key =>
      if key = "labels" then
        if labels.isSome then .error ⟨.duplicateField key, closingPlace c⟩
        else do
          let c ← colon c
          let (t, c) ← table labelKind c
          fieldsFrom fuel false (some t) values c
      else if key = "variables" then
        if values.isSome then .error ⟨.duplicateField key, closingPlace c⟩
        else do
          let c ← colon c
          let (t, c) ← table variableKind c
          fieldsFrom fuel false labels (some t) c
      else do
        let c ← colon c
        let c ← skipValue c
        fieldsFrom fuel false labels values c

/-- Find an element of an array of two, by its index. -/
def element (index : Nat) (c : Cursor) : Except Failure Cursor :=
  let c := skipSpace c
  match c.peek? with
  | none => .error ⟨.endInList, c.offset⟩
  | some x =>
    if x = ']' then
      .error ⟨.wrongLength index "struct DebugSymbols with 2 elements", c.offset + 1⟩
    else if index = 0 then .ok c
    else if x = ',' then
      let c := skipSpace c.advance
      match c.peek? with
      | none => .error ⟨.endInValue, c.offset⟩
      | some ']' => .error ⟨.trailingComma, ahead c⟩
      | some _ => .ok c
    else .error ⟨.expectedListEnd, ahead c⟩

/-- Read the end of an array that has all its elements. -/
def listEnd (c : Cursor) : Except Failure Cursor :=
  let c := skipSpace c
  match c.peek? with
  | none => .error ⟨.endInList, c.offset⟩
  | some ']' => .ok c.advance
  | some ',' =>
    let c := skipSpace c.advance
    if c.peek? = some ']' then .error ⟨.trailingComma, ahead c⟩
    else .error ⟨.trailingCharacters, ahead c⟩
  | some _ => .error ⟨.trailingCharacters, ahead c⟩

/-- Read symbols at the front of a text. -/
def read (c : Cursor) : Except Failure (Symbols × Cursor) :=
  let c := skipSpace c
  match c.peek? with
  | none => .error ⟨.endInValue, c.offset⟩
  | some '[' => do
    let c ← element 0 c.advance
    let (labels, c) ← table labelKind c
    let c ← element 1 c
    let (values, c) ← table variableKind c
    let c ← listEnd c
    pure ({ labels, values }, c)
  | some '\x7b' => fieldsFrom (c.rest.length + 1) true none none c.advance
  | some _ => .error (mismatch "struct DebugSymbols" c)

def decode (text : List Char) : Except Failure Symbols := do
  let (s, c) ← read (Cursor.ofText text)
  let c := skipSpace c
  if c.rest.isEmpty then pure s else .error ⟨.trailingCharacters, ahead c⟩

/-- The symbols of a JSON text. -/
def ofJson (text : String) : Except Json.Error Symbols :=
  (decode text.toList).mapError (·.report text.toList)

end StackRisc.Symbols
