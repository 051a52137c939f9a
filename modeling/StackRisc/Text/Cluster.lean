import StackRisc.Text.ClusterClass

/-!
# StackRisc.Text.Cluster

Texts as the characters that a reader sees.  One such character may consist
of several: a letter and its accents, the syllables of some scripts, a flag.
Whether two neighbours belong together depends on their classes and, for
Indic syllables, joined pictographs and flags, on what stands before them.
-/

namespace StackRisc.Text

/-! ## What stands before -/

/-- How far an Indic syllable has come. -/
inductive Conjunct where
  | outside
  /-- Behind a consonant and marks. -/
  | begun
  /-- Behind a consonant and marks, of which one is a linker. -/
  | linked
  deriving DecidableEq, Repr, Inhabited

/-- How far a sequence of joined pictographs has come. -/
inductive Joining where
  | outside
  /-- Behind a pictograph and marks. -/
  | begun
  /-- Behind a pictograph, marks and a joiner. -/
  | joined
  deriving DecidableEq, Repr, Inhabited

/-- What matters of the text before a place. -/
structure ClusterContext where
  last : ClusterClass
  conjunct : Conjunct := .outside
  joining : Joining := .outside
  /-- Whether the last letter of a flag has no partner before it. -/
  halfFlag : Bool := false
  deriving DecidableEq, Repr, Inhabited

namespace ClusterContext

/-- The front of a text. -/
def start : ClusterContext := { last := .control }

/-- The state of an Indic syllable behind one more character. -/
def conjunctAfter (x : ClusterContext) (k : ClusterClass) : Conjunct :=
  match k with
  | .consonant => .begun
  | .linker => if x.conjunct = .outside then .outside else .linked
  | .mark | .joiner => x.conjunct
  | _ => .outside

/-- The state of joined pictographs behind one more character. -/
def joiningAfter (x : ClusterContext) (k : ClusterClass) : Joining :=
  match k with
  | .pictograph => .begun
  | .mark | .linker | .nonJoiner => if x.joining = .begun then .begun else .outside
  | .joiner => if x.joining = .begun then .joined else .outside
  | _ => .outside

/-- What matters behind one more character. -/
def after (x : ClusterContext) (k : ClusterClass) : ClusterContext where
  last := k
  conjunct := x.conjunctAfter k
  joining := x.joiningAfter k
  halfFlag := k = .regional ∧ ¬ x.halfFlag

/-- Whether a character of a class belongs to the one before it. -/
def joins (x : ClusterContext) (k : ClusterClass) : Bool :=
  match x.last, k with
  | .carriageReturn, .lineFeed => true
  | .carriageReturn, _ | .lineFeed, _ | .control, _ => false
  | _, .carriageReturn | _, .lineFeed | _, .control => false
  | _, .mark | _, .linker | _, .joiner | _, .nonJoiner | _, .spacingMark => true
  | .prepended, _ => true
  | .leading, .leading | .leading, .vowel => true
  | .leading, .openSyllable | .leading, .closedSyllable => true
  | .openSyllable, .vowel | .openSyllable, .trailing => true
  | .vowel, .vowel | .vowel, .trailing => true
  | .closedSyllable, .trailing | .trailing, .trailing => true
  | _, .consonant => x.conjunct = .linked
  | _, .pictograph => x.joining = .joined
  | .regional, .regional => x.halfFlag
  | _, _ => false

end ClusterContext

/-! ## Clusters -/

/-- The clusters of a text behind a context. -/
def clustersFrom : ClusterContext → List Char → List (List Char)
  | _, [] => []
  | before, c :: rest =>
    let here := before.after (.ofChar c)
    match clustersFrom here rest with
    | [] => [[c]]
    | cluster :: more =>
      if rest.head?.any fun d => here.joins (.ofChar d) then (c :: cluster) :: more
      else [c] :: cluster :: more

def clusters (cs : List Char) : List (List Char) := clustersFrom .start cs

/-- Clusters are what a text consists of. -/
theorem flatten_clustersFrom (x : ClusterContext) (cs : List Char) :
    (clustersFrom x cs).flatten = cs := by
  induction cs generalizing x with
  | nil => rfl
  | cons c rest ih =>
    have tail := ih (x.after (.ofChar c))
    rw [clustersFrom]
    split
    · next h => simp_all
    · next h =>
      rw [h] at tail
      split <;> simp_all

/-- Clusters put together are the text. -/
@[simp] theorem flatten_clusters (cs : List Char) : (clusters cs).flatten = cs :=
  flatten_clustersFrom .start cs

end StackRisc.Text
