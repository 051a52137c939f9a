import StackRisc.Json.Number
import StackRisc.Json.Text

/-!
# StackRisc.Json.Value

Reading values of a known shape, and passing values of any shape.  What is
passed may be nested to any depth: the open brackets are kept in a list.
-/

namespace StackRisc.Json

open Text

/-! ## White space and keywords -/

/-- The white space of JSON. -/
def isSpace (c : Char) : Bool := c == ' ' || c == '\n' || c == '\t' || c == '\r'

def skipSpace (c : Cursor) : Cursor := c.skip isSpace

/-- Pass the letters of a keyword. -/
def keyword : List Char → Cursor → Except Failure Cursor
  | [], c => .ok c
  | x :: rest, c =>
    match c.peek? with
    | none => .error ⟨.endInValue, c.offset⟩
    | some y => if y = x then keyword rest c.advance else .error ⟨.expectedKeyword, c.offset + 1⟩

/-- Pass a keyword, at its first letter, if the letter starts one. -/
def keyword? (c : Cursor) : Option (Found × Except Failure Cursor) :=
  match c.peek? with
  | some 'n' => some (.null, keyword "ull".toList c.advance)
  | some 't' => some (.boolean true, keyword "rue".toList c.advance)
  | some 'f' => some (.boolean false, keyword "alse".toList c.advance)
  | _ => none

def number? (c : Cursor) : Option (Except Failure (Number × Cursor)) :=
  match c.peek? with
  | some '-' => some (number false c.advance)
  | some x => if x.isDigit then some (number true c) else none
  | none => none

/-! ## Passing values -/

/-- An open bracket. -/
inductive Bracket where
  | list | object
  deriving DecidableEq, Repr

/-- What comes next while values are passed. -/
inductive Phase where
  /-- A value. -/
  | value
  /-- The end of the innermost bracket, or a comma if something stood before. -/
  | close (comma : Bool)
  /-- An item of the innermost bracket. -/
  | item
  deriving DecidableEq, Repr

/-- Pass a value that is not bracketed. -/
def skipScalar (c : Cursor) : Except Failure Cursor :=
  match c.peek? with
  | none => .error ⟨.endInValue, c.offset⟩
  | some '"' => skipString c.advance
  | some '-' => skipNumber c.advance
  | some x =>
    if x.isDigit then skipNumber c
    else
      match keyword? c with
      | some (_, passed) => passed
      | none => .error ⟨.expectedValue, ahead c⟩

/-- Pass a key of an object and its colon. -/
def skipKey (c : Cursor) : Except Failure Cursor := do
  let c := skipSpace c
  if c.peek? = none then .error ⟨.endInObject, c.offset⟩
  else if c.peek? ≠ some '"' then .error ⟨.keyNotString, ahead c⟩
  else
    let c ← skipString c.advance
    let c := skipSpace c
    if c.peek? = none then .error ⟨.endInObject, c.offset⟩
    else if c.peek? ≠ some ':' then .error ⟨.expectedColon, ahead c⟩
    else pure c.advance

/-- Pass values until every open bracket is closed. -/
def skipFrom : (fuel : Nat) → (stack : List Bracket) → Phase → Cursor → Except Failure Cursor
  | 0, _, _, c => .error ⟨.endInValue, c.offset⟩
  | fuel + 1, stack, .value, c =>
    let c := skipSpace c
    if c.peek? = some '[' then skipFrom fuel (.list :: stack) (.close false) c.advance
    else if c.peek? = some '\x7b' then skipFrom fuel (.object :: stack) (.close false) c.advance
    else do
      let c ← skipScalar c
      if stack.isEmpty then pure c else skipFrom fuel stack (.close true) c
  | _ + 1, [], _, c => .ok c
  | fuel + 1, bracket :: rest, .close comma, c =>
    let c := skipSpace c
    let closing := match bracket with
      | .list => ']'
      | .object => '\x7d'
    if c.peek? = none then
      .error ⟨if bracket = .list then .endInList else .endInObject, c.offset⟩
    else if c.peek? = some ',' ∧ comma then skipFrom fuel (bracket :: rest) .item c.advance
    else if c.peek? = some closing then
      if rest.isEmpty then .ok c.advance else skipFrom fuel rest (.close true) c.advance
    else if comma then
      .error ⟨if bracket = .list then .expectedListEnd else .expectedObjectEnd, ahead c⟩
    else skipFrom fuel (bracket :: rest) .item c
  | fuel + 1, bracket :: rest, .item, c =>
    match bracket with
    | .list => skipFrom fuel (bracket :: rest) .value c
    | .object => do
      let c ← skipKey c
      skipFrom fuel (bracket :: rest) .value c

def skipValue (c : Cursor) : Except Failure Cursor :=
  skipFrom (3 * c.rest.length + 3) [] .value c

/-! ## Values of a known kind -/

/-- The refusal of a value that is not of the expected kind. -/
def mismatch (expected : String) (c : Cursor) : Failure :=
  match keyword? c, number? c, c.peek? with
  | some (found, .ok c), _, _ => ⟨.wrongKind found expected, c.offset⟩
  | some (_, .error f), _, _ => f
  | none, some (.ok (n, c)), _ => ⟨.wrongKind n.found expected, c.offset⟩
  | none, some (.error f), _ => f
  | none, none, some '"' =>
    match string c.advance with
    | .ok (s, c) => ⟨.wrongKind (.string s) expected, c.offset⟩
    | .error f => f
  | none, none, some '[' => ⟨.wrongKind .array expected, c.offset⟩
  | none, none, some '\x7b' => ⟨.wrongKind .object expected, c.offset⟩
  | none, none, _ => ⟨.expectedValue, ahead c⟩

/-- Read an integer between two bounds. -/
def integer (low high : Int) (expected : String) (c : Cursor) : Except Failure (Int × Cursor) :=
  let c := skipSpace c
  match c.peek?, number? c with
  | none, _ => .error ⟨.endInValue, c.offset⟩
  | some _, none => .error (mismatch expected c)
  | some _, some (.error f) => .error f
  | some _, some (.ok (.float x, c)) => .error ⟨.wrongKind (Number.float x).found expected, c.offset⟩
  | some _, some (.ok (.integer n, c)) =>
    if low ≤ n ∧ n ≤ high then .ok (n, c)
    else .error ⟨.wrongValue (.integer n) expected, c.offset⟩

/-! ## Objects -/

/-- Read the next key of an object, or stop at its closing bracket. -/
def nextKey? (first : Bool) (c : Cursor) : Except Failure (Option String × Cursor) := do
  let c := skipSpace c
  match c.peek? with
  | none => .error ⟨.endInObject, c.offset⟩
  | some x =>
    if x = '\x7d' then pure (none, c)
    else if first then
      if x = '"' then
        let (key, c) ← string c.advance
        pure (some key, c)
      else .error ⟨.keyNotString, ahead c⟩
    else if x = ',' then
      let c := skipSpace c.advance
      match c.peek? with
      | none => .error ⟨.endInValue, c.offset⟩
      | some '"' => do
        let (key, c) ← string c.advance
        pure (some key, c)
      | some '\x7d' => .error ⟨.trailingComma, ahead c⟩
      | some _ => .error ⟨.keyNotString, ahead c⟩
    else .error ⟨.expectedObjectEnd, ahead c⟩

/-- Read the colon after a key. -/
def colon (c : Cursor) : Except Failure Cursor :=
  let c := skipSpace c
  match c.peek? with
  | none => .error ⟨.endInObject, c.offset⟩
  | some ':' => .ok c.advance
  | some _ => .error ⟨.expectedColon, ahead c⟩

end StackRisc.Json
