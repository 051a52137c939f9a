import StackRisc.Json.Error
import StackRisc.Text.Cursor

/-!
# StackRisc.Json.Text

String literals: how a text is written between quotes, and how it is read
back.  A failure inside a literal is placed after the last character looked
at.
-/

namespace StackRisc.Json

open Text

/-! ## Writing -/

/-- A character as it stands in a string literal. -/
def encodeChar (c : Char) : List Char :=
  if c = '"' then ['\\', '"']
  else if c = '\\' then ['\\', '\\']
  else if c = '\x08' then ['\\', 'b']
  else if c = '\x0c' then ['\\', 'f']
  else if c = '\n' then ['\\', 'n']
  else if c = '\r' then ['\\', 'r']
  else if c = '\t' then ['\\', 't']
  else if c.toNat < 0x20 then
    ['\\', 'u', '0', '0', (c.toNat / 16).digitChar, (c.toNat % 16).digitChar]
  else [c]

def encodeText (text : String) : List Char :=
  '"' :: text.toList.flatMap encodeChar ++ ['"']

/-! ## Reading -/

/-- The character of an escape of one letter. -/
def simpleEscape? (c : Char) : Option Char :=
  if c = '"' then some '"'
  else if c = '\\' then some '\\'
  else if c = '/' then some '/'
  else if c = 'b' then some '\x08'
  else if c = 'f' then some '\x0c'
  else if c = 'n' then some '\n'
  else if c = 'r' then some '\r'
  else if c = 't' then some '\t'
  else none

/-- Read four hexadecimal digits.  Four bytes are looked at even where they
are no digits. -/
def hexEscape (c : Cursor) : Except Failure (Nat × Cursor) :=
  match c.rest with
  | a :: b :: d :: e :: rest =>
    if isHexDigit a && isHexDigit b && isHexDigit d && isHexDigit e then
      .ok (ofDigits 16 [a, b, d, e], ⟨c.offset + 4, rest⟩)
    else .error ⟨.invalidEscape, c.offset + 4⟩
  | rest =>
    if 4 ≤ utf8Size rest then .error ⟨.invalidEscape, c.offset + 4⟩
    else .error ⟨.endInString, c.offset + utf8Size rest⟩

/-- Read one given character of the escape of a trailing surrogate. -/
def surrogateMark (mark : Char) (c : Cursor) : Except Failure Cursor :=
  match c.rest with
  | [] => .error ⟨.endInString, c.offset⟩
  | x :: rest =>
    if x = mark then .ok ⟨c.offset + 1, rest⟩ else .error ⟨.endInEscape, c.offset + 1⟩

/-- Read the digits of a `\u` escape; a character past 16 bits takes two
escapes. -/
def unicodeEscape (c : Cursor) : Except Failure (Char × Cursor) := do
  let (n, c) ← hexEscape c
  if 0xdc00 ≤ n ∧ n ≤ 0xdfff then .error ⟨.loneSurrogate, c.offset⟩
  else if n < 0xd800 ∨ 0xdbff < n then pure (Char.ofNat n, c)
  else
    let c ← surrogateMark '\\' c
    let c ← surrogateMark 'u' c
    let (m, c) ← hexEscape c
    if m < 0xdc00 ∨ 0xdfff < m then .error ⟨.loneSurrogate, c.offset⟩
    else pure (Char.ofNat ((n - 0xd800) * 1024 + (m - 0xdc00) + 0x10000), c)

/-- Read what follows a backslash. -/
def escape (c : Cursor) : Except Failure (Char × Cursor) :=
  match c.rest with
  | [] => .error ⟨.endInString, c.offset⟩
  | x :: _ =>
    if x = 'u' then unicodeEscape c.advance
    else
      match simpleEscape? x with
      | some y => .ok (y, c.advance)
      | none => .error ⟨.invalidEscape, c.offset + 1⟩

/-- Read a string literal after its opening quote, adding to the characters
read before, last one first. -/
def stringFrom : (fuel : Nat) → (read : List Char) → Cursor → Except Failure (String × Cursor)
  | 0, _, c => .error ⟨.endInString, c.offset⟩
  | fuel + 1, read, c =>
    match c.rest with
    | [] => .error ⟨.endInString, c.offset⟩
    | x :: _ =>
      if x = '"' then .ok (String.ofList read.reverse, c.advance)
      else if x = '\\' then do
        let (y, c) ← escape c.advance
        stringFrom fuel (y :: read) c
      else if x.toNat < 0x20 then .error ⟨.controlCharacter, c.offset + 1⟩
      else stringFrom fuel (x :: read) c.advance

def string (c : Cursor) : Except Failure (String × Cursor) :=
  stringFrom (c.rest.length + 1) [] c

/-! ## Skipping -/

/-- Pass what follows a backslash.  Surrogates need no partner here. -/
def skipEscape (c : Cursor) : Except Failure Cursor :=
  match c.rest with
  | [] => .error ⟨.endInString, c.offset⟩
  | x :: _ =>
    if x = 'u' then do
      let (_, c) ← hexEscape c.advance
      pure c
    else if (simpleEscape? x).isSome then .ok c.advance
    else .error ⟨.invalidEscape, c.offset + 1⟩

/-- Pass a string literal after its opening quote. -/
def skipStringFrom : (fuel : Nat) → Cursor → Except Failure Cursor
  | 0, c => .error ⟨.endInString, c.offset⟩
  | fuel + 1, c =>
    match c.rest with
    | [] => .error ⟨.endInString, c.offset⟩
    | x :: _ =>
      if x = '"' then .ok c.advance
      else if x = '\\' then do
        let c ← skipEscape c.advance
        skipStringFrom fuel c
      else if x.toNat < 0x20 then .error ⟨.controlCharacter, c.offset⟩
      else skipStringFrom fuel c.advance

def skipString (c : Cursor) : Except Failure Cursor := skipStringFrom (c.rest.length + 1) c

end StackRisc.Json
