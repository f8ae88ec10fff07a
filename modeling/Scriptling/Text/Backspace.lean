import Scriptling.Text.Cluster

/-!
# Backspaces

In a line that was typed, a backspace takes back what was typed before it: not a code
point, but a whole cluster. At the beginning of a line there is nothing to take back, and
the backspace has no effect.

How many bytes a cluster takes is noted in a single byte. So of a cluster of 256 bytes or
more only the remainder is taken back, and it can happen that this would cut a character in
two. Then there is no line.

* `takeBack?_of_not_mem`: a line without a backspace stays as it is.
-/

namespace Scriptling.Text

/-- The backspace. -/
def backspace : Char := Char.ofNat 8

/-- The number of bytes of a row of characters, as a single byte holds it. -/
def noteSize (cluster : List Char) : UInt8 :=
  .ofNat (String.ofList cluster).utf8ByteSize

/-- A row of characters without its first `n` bytes; nothing if a character would be cut in
two. -/
def dropBytes? : (n : Nat) → List Char → Option (List Char)
  | 0, cs => some cs
  | _ + 1, [] => none
  | n + 1, c :: cs => if c.utf8Size ≤ n + 1 then dropBytes? (n + 1 - c.utf8Size) cs else none

/-- What has been typed of a line. -/
structure Typed where
  /-- its characters, the last one first -/
  reversed : List Char
  /-- the noted sizes of its clusters, the last one first -/
  sizes : List UInt8

namespace Typed

/-- Nothing has been typed. -/
def empty : Typed := ⟨[], []⟩

/-- Takes back the last cluster. -/
def undo? (t : Typed) : Option Typed :=
  match t.sizes with
  | [] => some t
  | size :: sizes => (dropBytes? size.toNat t.reversed).map fun reversed => ⟨reversed, sizes⟩

/-- Types one more cluster. -/
def push? (t : Typed) (cluster : List Char) : Option Typed :=
  if cluster = [backspace] then t.undo?
  else some ⟨cluster.reverse ++ t.reversed, noteSize cluster :: t.sizes⟩

/-- Clusters without a backspace among them all stay. -/
theorem foldlM_push?_of_not_mem (t : Typed) (clusters : List (List Char))
    (h : [backspace] ∉ clusters) :
    (clusters.foldlM push? t).map reversed = some (clusters.flatten.reverse ++ t.reversed) := by
  induction clusters generalizing t with
  | nil => rfl
  | cons cluster rest ih =>
    have hne : cluster ≠ [backspace] := fun e => h (e ▸ List.mem_cons_self)
    have hrest : [backspace] ∉ rest := fun m => h (List.mem_cons_of_mem _ m)
    simp [push?, hne, ih _ hrest]

end Typed

/-- What is left of a typed line; nothing if a character would be cut in two. -/
def takeBack? (cs : List Char) : Option (List Char) :=
  ((clusters cs).foldlM Typed.push? .empty).map fun t => t.reversed.reverse

/-- A line without a backspace stays as it is. -/
theorem takeBack?_of_not_mem {cs : List Char} (h : backspace ∉ cs) : takeBack? cs = some cs := by
  have hnot : [backspace] ∉ clusters cs := by
    intro m
    apply h
    rw [← flatten_clusters cs]
    exact List.mem_flatten_of_mem m List.mem_cons_self
  have hfold := Typed.foldlM_push?_of_not_mem .empty _ hnot
  rw [takeBack?, show (fun t : Typed => t.reversed.reverse) = List.reverse ∘ Typed.reversed from rfl,
    ← Option.map_map, hfold]
  simp [Typed.empty, flatten_clusters]

end Scriptling.Text
