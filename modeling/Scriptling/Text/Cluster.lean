import Scriptling.Text.BreakClass

/-!
# Clusters

A text is cut into *clusters*, the runs of code points that a reader takes for one
character each: the extended grapheme clusters of Unicode. Whether a character goes on with
the cluster before it depends on its class and on a little of what is before it, which a
`Trail` keeps.

* `flatten_clusters`: nothing is lost and nothing is moved.
-/

namespace Scriptling.Text

/-- How far a conjunct of consonants has come. -/
inductive Conjunct
  /-- no consonant stands at the end -/
  | absent
  /-- a consonant stands at the end, perhaps with marks behind it -/
  | begun
  /-- the same, with a linker among the marks -/
  | linked
deriving DecidableEq, Repr

/-- What the end of a text tells about the character behind it. -/
structure Trail where
  /-- the class of the last character -/
  last : BreakClass
  /-- whether a pictograph stands at the end, with nothing but extending marks behind it
  and at most one joiner, which is then the last character -/
  pictograph : Bool
  /-- how far a conjunct has come -/
  conjunct : Conjunct
  /-- whether the number of halves of flags at the end is odd -/
  halfFlag : Bool
deriving DecidableEq, Repr

namespace Trail

/-- The trail of the empty text. -/
def start : Trail := ⟨.control, false, .absent, false⟩

/-- Whether a character goes on with the cluster before it. -/
def goesOn (t : Trail) (b : BreakClass) : Bool :=
  if t.last = .carriageReturn && b = .lineFeed then true
  else if t.last.standsAlone || b.standsAlone then false
  else if b.isMark || t.last = .prepended || t.last.syllableGoesOn b then true
  else match b with
    | .consonant => t.conjunct = .linked
    | .pictograph => t.last = .joiner && t.pictograph
    | .regional => t.halfFlag
    | _ => false

/-- Whether a pictograph stands at the end after one more character. -/
def pictographAfter (t : Trail) : BreakClass → Bool
  | .pictograph => true
  | .extend | .linker | .nonJoiner | .joiner => t.pictograph && t.last ≠ .joiner
  | _ => false

/-- How far a conjunct has come after one more character. -/
def conjunctAfter (t : Trail) : BreakClass → Conjunct
  | .consonant => .begun
  | .linker => if t.conjunct = .absent then .absent else .linked
  | .extend | .joiner => t.conjunct
  | _ => .absent

/-- The trail after one more character. -/
def push (t : Trail) (b : BreakClass) : Trail :=
  { last := b
    pictograph := t.pictographAfter b
    conjunct := t.conjunctAfter b
    halfFlag := b = .regional && !t.halfFlag }

end Trail

/-- A text cut into clusters, as far as it has been read. -/
structure Clustering where
  /-- the trail of the text -/
  trail : Trail
  /-- the clusters, the last one first, and each of them from its end -/
  reversed : List (List Char)

namespace Clustering

/-- Nothing has been read. -/
def empty : Clustering := ⟨.start, []⟩

/-- Reads one more character. -/
def push (s : Clustering) (c : Char) : Clustering :=
  let b := BreakClass.ofChar c
  let trail := s.trail.push b
  match s.reversed with
  | [] => ⟨trail, [[c]]⟩
  | cluster :: before =>
    if s.trail.goesOn b then ⟨trail, (c :: cluster) :: before⟩
    else ⟨trail, [c] :: cluster :: before⟩

/-- The clusters that have been read. -/
def clusters (s : Clustering) : List (List Char) := (s.reversed.map List.reverse).reverse

/-- One more character stands at the end of the text. -/
theorem flatten_clusters_push (s : Clustering) (c : Char) :
    (s.push c).clusters.flatten = s.clusters.flatten ++ [c] := by
  obtain ⟨trail, reversed⟩ := s
  cases reversed with
  | nil => rfl
  | cons cluster before =>
    simp only [push]
    split <;> simp [clusters]

/-- More characters stand at the end of the text. -/
theorem flatten_clusters_foldl (s : Clustering) (cs : List Char) :
    (cs.foldl push s).clusters.flatten = s.clusters.flatten ++ cs := by
  induction cs generalizing s with
  | nil => simp
  | cons c cs ih => simp [ih, flatten_clusters_push]

end Clustering

/-- The clusters of a text. -/
def clusters (cs : List Char) : List (List Char) :=
  (cs.foldl Clustering.push .empty).clusters

/-- **Nothing is lost.** The clusters of a text put together are the text. -/
theorem flatten_clusters (cs : List Char) : (clusters cs).flatten = cs :=
  Clustering.flatten_clusters_foldl .empty cs

end Scriptling.Text
