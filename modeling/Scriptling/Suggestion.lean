import Scriptling.Text.EditDistance

/-!
# Suggestions for mistyped names

A name that is not known may be a slip for one that is. The candidate of least edit
distance is suggested if it is near enough: one edit away for names of up to four
characters, two for longer ones. Of several at the same distance the first one wins.
-/

namespace Scriptling.Suggestion

/-- How many edits away a suggestion may be. -/
def reach (name : String) : Nat :=
  if name.length ≤ 4 then 1 else 2

/-- The better of the best candidate so far and the next one; the earlier one if they
are equally far. Candidates out of reach are passed over. -/
def better (name : String) (best : Option (Nat × String)) (candidate : String) :
    Option (Nat × String) :=
  let d := Text.editDistance name candidate
  if d ≤ reach name then
    match best with
    | none => some (d, candidate)
    | some (d', _) => if d < d' then some (d, candidate) else best
  else best

/-- The first candidate of least distance from `name` among those within reach. -/
def nearest? (name : String) (candidates : List String) : Option String :=
  (candidates.foldl (better name) none).map (·.2)

/-- The suggestion as the end of a message; nothing if there is none. -/
def hint : Option String → String
  | some name => " (did you mean `" ++ name ++ "`?)"
  | none => ""

end Scriptling.Suggestion
