/-!
# StackRisc.CommandLine.Words

A typed line as words.  Words stand between spaces, tabs and line ends.
Single quotes keep every character, double quotes keep all but a backslash
in front of a character that is special there, and a backslash outside of
quotes keeps the character behind it.  A `#` at the start of a word opens a
comment up to the end of its line.  A line whose quotes are not closed has
no words yet.
-/

namespace StackRisc.CommandLine

/-- A character that ends a word. -/
def isSeparator (c : Char) : Bool := c == ' ' || c == '\t' || c == '\n'

/-- A character that a backslash keeps inside double quotes. -/
def isQuotedSpecial (c : Char) : Bool := c == '$' || c == '\x60' || c == '"' || c == '\\'

/-- Where in a line the reader is.  The word being read is given by its
characters so far, last one first. -/
inductive Place where
  | between
  | comment
  | plain (word : List Char)
  | single (word : List Char)
  | double (word : List Char)
  deriving DecidableEq, Repr, Inhabited

def wordOf (reversed : List Char) : String := String.ofList reversed.reverse

/-- The words of a line from a place in it on. -/
def wordsFrom : Place → List Char → Option (List String)
  | .between, [] => some []
  | .between, '\'' :: rest => wordsFrom (.single []) rest
  | .between, '"' :: rest => wordsFrom (.double []) rest
  | .between, '\\' :: [] => some ["\\"]
  | .between, '\\' :: c :: rest =>
    if c = '\n' then wordsFrom .between rest else wordsFrom (.plain [c]) rest
  | .between, '#' :: rest => wordsFrom .comment rest
  | .between, c :: rest =>
    if isSeparator c then wordsFrom .between rest else wordsFrom (.plain [c]) rest
  | .comment, [] => some []
  | .comment, c :: rest => wordsFrom (if c = '\n' then .between else .comment) rest
  | .plain word, [] => some [wordOf word]
  | .plain word, '\'' :: rest => wordsFrom (.single word) rest
  | .plain word, '"' :: rest => wordsFrom (.double word) rest
  | .plain word, '\\' :: [] => some [wordOf ('\\' :: word)]
  | .plain word, '\\' :: c :: rest =>
    wordsFrom (.plain (if c = '\n' then word else c :: word)) rest
  | .plain word, c :: rest =>
    if isSeparator c then (wordsFrom .between rest).map (wordOf word :: ·)
    else wordsFrom (.plain (c :: word)) rest
  | .single _, [] => none
  | .single word, c :: rest =>
    if c = '\'' then wordsFrom (.plain word) rest else wordsFrom (.single (c :: word)) rest
  | .double _, [] => none
  | .double word, '"' :: rest => wordsFrom (.plain word) rest
  | .double _, '\\' :: [] => none
  | .double word, '\\' :: c :: rest =>
    if c = '\n' then wordsFrom (.double word) rest
    else if isQuotedSpecial c then wordsFrom (.double (c :: word)) rest
    else wordsFrom (.double (c :: '\\' :: word)) rest
  | .double word, c :: rest => wordsFrom (.double (c :: word)) rest

/-- The words of a line; none if a quote is not closed. -/
def words? (line : String) : Option (List String) := wordsFrom .between line.toList

end StackRisc.CommandLine
