/-!
# StackRisc.Text.Blank

White space.  Two notions are in use and must not be mixed: a *blank* is any
character with the Unicode property `White_Space` and is what is trimmed
around a line; a *gap* is a space or a tab and is what separates the words
of a line.
-/

namespace StackRisc.Text

/-- A character with the Unicode property `White_Space`. -/
def isBlank (c : Char) : Bool :=
  let n := c.toNat
  (9 ≤ n && n ≤ 13) || n == 0x20 || n == 0x85 || n == 0xa0 || n == 0x1680
    || (0x2000 ≤ n && n ≤ 0x200a) || n == 0x2028 || n == 0x2029 || n == 0x202f
    || n == 0x205f || n == 0x3000

def isGap (c : Char) : Bool := c == ' ' || c == '\t'

/-- Every gap is a blank. -/
theorem isBlank_of_isGap {c : Char} (h : isGap c = true) : isBlank c = true := by
  simp only [isGap, Bool.or_eq_true, beq_iff_eq] at h
  rcases h with h | h <;> subst h <;> decide

/-! ## Trimming -/

def trimStart (cs : List Char) : List Char := cs.dropWhile isBlank

def trimEnd (cs : List Char) : List Char := (cs.reverse.dropWhile isBlank).reverse

def trim (cs : List Char) : List Char := trimEnd (trimStart cs)

/-! ## Letter case and size -/

/-- Upper-case the ASCII letters; every other character stays, so no
character changes its UTF-8 size. -/
def upper (cs : List Char) : List Char := cs.map Char.toUpper

def utf8Size : List Char → Nat
  | [] => 0
  | c :: cs => c.utf8Size + utf8Size cs

@[simp] theorem utf8Size_nil : utf8Size [] = 0 := rfl

@[simp] theorem utf8Size_cons (c : Char) (cs : List Char) :
    utf8Size (c :: cs) = c.utf8Size + utf8Size cs := rfl

@[simp] theorem utf8Size_append (a b : List Char) :
    utf8Size (a ++ b) = utf8Size a + utf8Size b := by
  induction a with
  | nil => simp
  | cons c a ih => simp [ih, Nat.add_assoc]

/-! ## Cutting at a separator -/

/-- The pieces of a text between the occurrences of a separator; there is
always one more piece than there are separators. -/
def pieces (separator : Char) : List Char → List (List Char)
  | [] => [[]]
  | c :: cs =>
    if c = separator then [] :: pieces separator cs
    else
      match pieces separator cs with
      | [] => [[c]]
      | piece :: rest => (c :: piece) :: rest

/-- There is always a piece, if only an empty one. -/
theorem pieces_ne_nil (separator : Char) (cs : List Char) : pieces separator cs ≠ [] := by
  cases cs with
  | nil => simp [pieces]
  | cons c cs =>
    rw [pieces]
    split
    · simp
    · split <;> simp

def before (separator : Char) (cs : List Char) : List Char :=
  cs.takeWhile (· ≠ separator)

/-- The first line of a text, without its line end. -/
def firstLine (text : String) : String :=
  let line := before '\n' text.toList
  String.ofList (if line.getLast? = some '\r' ∧ '\n' ∈ text.toList then line.dropLast else line)

end StackRisc.Text
