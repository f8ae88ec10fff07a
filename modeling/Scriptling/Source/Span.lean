/-!
# Spans: where a phrase stands in its source

A source is a text, and a place in it is a byte offset into its UTF-8 encoding.
A *span* runs from a first offset up to, and not including, a second one. Spans
are plain pairs: a tree built by hand may carry any of them, so no order of the
two ends is demanded.

Two ways of joining spans are in use and they differ on spans that are out of
order. `Span.merge` is the hull of two spans. `Extent.join` is what the grammar
needs: the place of a phrase made of consecutive phrases starts where its first
token starts and stops where its last token stops.
-/

namespace Scriptling

/-- A stretch of source text, given by byte offsets. -/
structure Span where
  /-- the offset of the first byte -/
  start : Nat
  /-- the offset just behind the last byte -/
  stop : Nat
deriving DecidableEq, Repr, Inhabited

namespace Span

/-- The hull of two spans: the least start and the greatest stop. -/
def merge (a b : Span) : Span :=
  ⟨min a.start b.start, max a.stop b.stop⟩

/-- As much of a span as lies within the first `size` bytes. -/
def clamp (size : Nat) (s : Span) : Span :=
  ⟨min s.start size, min s.stop size⟩

/-- A span as text: both offsets with two dots between. -/
def text (s : Span) : String :=
  s.start.repr ++ ".." ++ s.stop.repr

end Span

/-- The place of a phrase, if it has one: a phrase without tokens has none. -/
abbrev Extent := Option Span

namespace Extent

/-- The place of two phrases that follow one another. -/
def join : Extent → Extent → Extent
  | none, b => b
  | some a, none => some a
  | some a, some b => some ⟨a.start, b.stop⟩

/-- The place as a span. Phrases without tokens, whose place no rule of the grammar
looks at, are put at the very start. -/
def span (e : Extent) : Span :=
  e.getD ⟨0, 0⟩

@[simp] theorem join_none (e : Extent) : join none e = e := rfl

@[simp] theorem join_none_right (e : Extent) : join e none = e := by
  cases e <;> rfl

end Extent

end Scriptling
