import StackRisc.Text.Blank
import StackRisc.Text.Cluster

/-!
# StackRisc.Text.Backspace

Typed text in which a backspace takes back what was typed before it: a whole
cluster, as a reader sees one.  The size of a cluster is kept in a byte, so
of a cluster of 256 bytes or more a backspace takes back only the rest.
-/

namespace StackRisc.Text

def backspace : Char := '\x08'

/-- Text while it is typed. -/
structure Keyed where
  /-- The text, last character first. -/
  text : List Char := []
  /-- Sizes in bytes of the clusters that can be taken back, the last one
  first. -/
  sizes : List UInt8 := []
  deriving DecidableEq, Repr, Inhabited

namespace Keyed

/-- Drop a number of bytes at the front, and the whole of a character of
which some are dropped. -/
def dropBytes : Nat → List Char → List Char
  | 0, cs => cs
  | _ + 1, [] => []
  | n + 1, c :: cs => dropBytes (n + 1 - c.utf8Size) cs

/-- Add one more cluster that was typed. -/
def add (k : Keyed) (cluster : List Char) : Keyed :=
  if cluster = [backspace] then
    match k.sizes with
    | [] => k
    | size :: sizes => { text := dropBytes size.toNat k.text, sizes }
  else
    { text := cluster.reverse ++ k.text
      sizes := UInt8.ofNat (utf8Size cluster) :: k.sizes }

/-- Clusters without a backspace pile up. -/
theorem text_foldl_add (k : Keyed) (typed : List (List Char))
    (h : ∀ cluster ∈ typed, backspace ∉ cluster) :
    (typed.foldl add k).text = typed.flatten.reverse ++ k.text := by
  induction typed generalizing k with
  | nil => simp
  | cons cluster typed ih =>
    have hc : cluster ≠ [backspace] := by
      rintro rfl
      exact h [backspace] (by simp) (by simp)
    rw [List.foldl_cons, ih _ fun c hm => h c (by simp [hm])]
    simp [add, hc]

end Keyed

/-- A text with its backspaces carried out. -/
def withoutBackspaces (text : String) : String :=
  String.ofList ((clusters text.toList).foldl Keyed.add {}).text.reverse

/-- A text without a backspace stays as it is. -/
theorem withoutBackspaces_eq_self {text : String} (h : backspace ∉ text.toList) :
    withoutBackspaces text = text := by
  have hc : ∀ cluster ∈ clusters text.toList, backspace ∉ cluster := fun cluster hm hb =>
    h (by
      rw [← flatten_clusters text.toList]
      exact List.mem_flatten_of_mem hm hb)
  simp [withoutBackspaces, Keyed.text_foldl_add _ _ hc]

end StackRisc.Text
