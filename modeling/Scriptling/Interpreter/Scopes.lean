import Scriptling.Interpreter.Fault
import Std.Data.TreeMap

/-!
# Scopes

Variables live in *frames*. There is always the global frame; every block that is being
run adds a local one, and only the innermost frame is written to. A name is looked up
from the innermost frame outwards, so an inner binding hides an outer one without
changing it.

A visible variable keeps its kind: `Scopes.assign` refuses a value of another kind and
then changes nothing.

The bindings of a frame have no order. Where they are listed, they come in some order
that nothing is known about (`Listing`): the names that a hint is searched in, and the
globals before they are sorted.
-/

namespace Scriptling

/-- The bindings of one frame. -/
abbrev Frame := Std.TreeMap String Value

/-- The order in which the bindings of a frame are listed. Any order will do, and frames
with the same bindings may be listed differently if they are at different depths. A run
lists names once at most, since it ends at the first unknown one, so that this leaves open
every order a run can meet. -/
structure Listing where
  /-- the bindings of a frame with so many frames around it -/
  entries : Nat → Frame → List (String × Value)
  /-- each binding is listed once -/
  perm (outer : Nat) (f : Frame) : (entries outer f).Perm f.toList

namespace Listing

/-- The order of the names. -/
def byName : Listing := ⟨fun _ f => f.toList, fun _ _ => .refl _⟩

/-- The names of a frame with `outer` frames around it. -/
def keys (l : Listing) (outer : Nat) (f : Frame) : List String :=
  (l.entries outer f).map Prod.fst

/-- The names of each frame, for frames of which every one is around those before it. -/
def rows (l : Listing) : List Frame → List (List String)
  | [] => []
  | f :: outer => l.keys outer.length f :: l.rows outer

end Listing

/-- The live frames. -/
structure Scopes where
  /-- the frames of the blocks being run, the innermost first -/
  locals : List Frame
  /-- the global frame -/
  global : Frame
  /-- the order in which bindings are listed -/
  listing : Listing

namespace Scopes

/-- Only a global frame, with no bindings. -/
def empty (listing : Listing := .byName) : Scopes := ⟨[], ∅, listing⟩

/-- Without any bindings, and without the frames of blocks. -/
def reset (s : Scopes) : Scopes :=
  empty s.listing

/-- All frames, the innermost first. -/
def frames (s : Scopes) : List Frame :=
  s.locals ++ [s.global]

/-- The number of frames; 1 if only the global one is live. -/
def depth (s : Scopes) : Nat :=
  s.locals.length + 1

/-- A new innermost frame. -/
def push (s : Scopes) : Scopes :=
  { s with locals := ∅ :: s.locals }

/-- Without the innermost frame. The global frame cannot be taken away. -/
def pop? (s : Scopes) : Option Scopes :=
  match s.locals with
  | [] => none
  | _ :: rest => some { s with locals := rest }

/-- Without the innermost frame, if it is not the global one. -/
def pop (s : Scopes) : Scopes :=
  s.pop?.getD s

/-- The value of a name: that of the innermost frame that binds it. -/
def get? (s : Scopes) (name : String) : Option Value :=
  s.frames.findSome? fun f => f[name]?

/-- Whether any frame binds the name. -/
def contains (s : Scopes) (name : String) : Bool :=
  s.frames.any fun f => f.contains name

/-- The names of all frames, the innermost first; a hidden name comes again. -/
def names (s : Scopes) : List String :=
  (s.listing.rows s.frames).flatten

/-- The bindings of the global frame, listed and then sorted by their names. -/
def globals (s : Scopes) : List (String × Value) :=
  (s.listing.entries 0 s.global).mergeSort fun a b => decide (a.1 ≤ b.1)

/-- Binds a name in the innermost frame, whatever it was bound to. -/
def bind (s : Scopes) (name : String) (v : Value) : Scopes :=
  match s.locals with
  | [] => { s with global := s.global.insert name v }
  | f :: rest => { s with locals := f.insert name v :: rest }

/-- Binds a name in the innermost frame, unless it is visible with another kind. -/
def assign (s : Scopes) (name : String) (v : Value) : Except Fault Scopes :=
  match s.get? name with
  | some old =>
    if old.kind = v.kind then .ok (s.bind name v)
    else .error (.typeConflict name old.kind v.kind)
  | none => .ok (s.bind name v)

/-- The value of a name, or a fault with a suggestion. -/
def lookup (s : Scopes) (name : String) : Except Fault Value :=
  match s.get? name with
  | some v => .ok v
  | none => .error (.undefinedVariable name (Suggestion.nearest? name s.names))

end Scopes

end Scriptling
