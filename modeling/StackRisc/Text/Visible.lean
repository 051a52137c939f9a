/-!
# StackRisc.Text.Visible

What is left of a text when control characters and control sequences are
taken out of it.  A control sequence begins with an escape character, and
the characters behind it say what it consists of and where it ends; another
escape character begins the next one.  Line ends, tabs and form feeds are
kept, unless they belong to a string that a sequence carries.
-/

namespace StackRisc.Text

/-! ## Classes of characters -/

/-- Whether a character lies between two others. -/
def isBetween (first last c : Char) : Bool := first ≤ c && c ≤ last

/-- A character that stands for itself. -/
def isPrintable (c : Char) : Bool := ' ' ≤ c && c ≠ '\x7f'

/-- A control character that only places the text around it. -/
def isLayout (c : Char) : Bool := c == '\t' || c == '\n' || c == '\x0c' || c == '\r'

/-! ## Control sequences -/

/-- Where a reader of control sequences is. -/
inductive Sequence where
  | outside
  /-- Behind the escape character. -/
  | escape
  /-- Behind the escape character and an intermediate one: up to a final one. -/
  | intermediate
  /-- Behind `[`: parameters, up to a letter. -/
  | control
  /-- Behind `P`: the head of a device string. -/
  | deviceHead
  /-- Among the parameters of a device string. -/
  | deviceParameters
  /-- Behind the parameters of a device string. -/
  | deviceIntermediate
  /-- In a string, up to its terminator. -/
  | string
  /-- Behind `]`: a command to the host, up to a bell. -/
  | command
  deriving DecidableEq, Repr, Inhabited

namespace Sequence

/-- The byte that ends a string, also as one of the bytes of a character. -/
def stringTerminator : UInt8 := 0x9c

/-- Where the character behind the escape character leads. -/
def afterEscape (c : Char) : Sequence :=
  if isBetween ' ' '/' c then intermediate
  else if c = '[' then control
  else if c = ']' then command
  else if c = 'P' then deviceHead
  else if c = 'X' ∨ c = '^' ∨ c = '_' then string
  else if isBetween '0' '~' c then outside
  else escape

/-- Where a character leads that neither begins nor breaks off a sequence. -/
def follow (s : Sequence) (c : Char) : Sequence :=
  match s with
  | outside => outside
  | escape => if isLayout c then outside else afterEscape c
  | intermediate => if isLayout c || isBetween '0' '~' c then outside else intermediate
  | control => if isLayout c || isBetween '@' '~' c then outside else control
  | deviceHead =>
    if isBetween ' ' '/' c then deviceIntermediate
    else if isBetween '0' '?' c then deviceParameters
    else if isBetween '@' '~' c then string
    else deviceHead
  | deviceParameters =>
    if isBetween ' ' '/' c then deviceIntermediate
    else if isBetween '<' '~' c then string
    else deviceParameters
  | deviceIntermediate => if isBetween '0' '~' c then string else deviceIntermediate
  | string => if (String.utf8EncodeChar c).contains stringTerminator then outside else string
  | command => if c = '\x07' then outside else command

/-- Where a character leads.  An escape character begins a sequence
everywhere, and the two characters for cancelling break one off. -/
def next (s : Sequence) (c : Char) : Sequence :=
  if c = '\x1b' then escape
  else if c = '\x18' ∨ c = '\x1a' then outside
  else s.follow c

/-- Whether a character is kept. -/
def keeps (s : Sequence) (c : Char) : Bool :=
  match s with
  | outside => isPrintable c || isLayout c
  | escape | intermediate | control => isLayout c
  | deviceHead | deviceParameters | deviceIntermediate | string | command => false

end Sequence

/-! ## Visible text -/

/-- What is visible of a text from a place in it on. -/
def visibleFrom : Sequence → List Char → List Char
  | _, [] => []
  | s, c :: rest =>
    if s.keeps c then c :: visibleFrom (s.next c) rest else visibleFrom (s.next c) rest

def visible (text : String) : String := String.ofList (visibleFrom .outside text.toList)

end StackRisc.Text
