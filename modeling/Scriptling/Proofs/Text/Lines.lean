import Mathlib.Data.List.SplitBy
import Scriptling.Interpreter.Channel
import Scriptling.Proofs.Text.Encoding

/-!
# The lines of a text

A text is divided behind every line feed; a last piece without one counts if it has any character
(`Text.pieces`). The lines of the text are these pieces without the line feeds and carriage
returns at their ends (`Text.lines`).

A stream of bytes is cut at the bytes of line feeds, before anything is decoded. No other
character has that byte. So a stream that is text as a whole is cut into pieces that are text,
and the lines that are read from it, one after the other, are those of the text
(`ByteStream.exists_next_encode`).
-/

namespace Scriptling

namespace Text

/-! ## Dividing -/

section

variable {α : Type} [DecidableEq α] {x : α} {xs : List α}

/-- The list divided behind every `x`. What is left behind the last one counts if there is any. -/
def divide (x : α) (xs : List α) : List (List α) :=
  xs.splitBy fun y _ => y != x

theorem isChain_of_not_mem (h : x ∉ xs) : xs.IsChain fun y _ => (y != x) = true := by
  apply List.Pairwise.isChain
  apply List.pairwise_of_forall_mem_list
  intro y hy z _
  simpa using ne_of_mem_of_not_mem hy h

/-- Without an `x` there is one piece. -/
theorem divide_of_not_mem (hne : xs ≠ []) (h : x ∉ xs) : divide x xs = [xs] :=
  List.splitBy_of_isChain hne (isChain_of_not_mem h)

/-- Behind an `x` a piece begins, whatever is in front of it. -/
theorem divide_append (front behind : List α) :
    divide x (front ++ [x] ++ behind) = divide x (front ++ [x]) ++ divide x behind :=
  List.splitBy_append (by simp)

/-- The first `x` ends the first piece. -/
theorem divide_concat (h : x ∉ xs) : divide x (xs ++ [x]) = [xs ++ [x]] := by
  refine List.splitBy_of_isChain (by simp) ?_
  apply (isChain_of_not_mem h).append (List.isChain_singleton x)
  intro y hy z _
  simpa using ne_of_mem_of_not_mem (List.mem_of_getLast? hy) h

/-- In a piece nothing comes behind an `x`. -/
theorem eq_nil_of_mem_divide {front behind : List α}
    (h : front ++ x :: behind ∈ divide x xs) : behind = [] := by
  have hchain := (List.isChain_of_mem_splitBy h).right_of_append
  cases behind with
  | nil => rfl
  | cons y behind => simp at hchain

end

/-! ## Pieces -/

/-- The text divided behind every line feed. -/
def pieces (text : String) : List String :=
  (text.toList.splitBy fun c _ => c != '\n').map String.ofList

/-- The lines of a text: its pieces without the line feeds and carriage returns at their ends. -/
def lines (text : String) : List String :=
  (pieces text).map stripEnd

theorem pieces_eq (text : String) : pieces text = (divide '\n' text.toList).map String.ofList := rfl

/-- Without a line feed a text is one piece. -/
theorem pieces_of_not_mem {s : String} (hs : s ≠ "") (h : '\n' ∉ s.toList) : pieces s = [s] := by
  rw [pieces_eq, divide_of_not_mem (by simpa using hs) h, List.map_singleton, String.ofList_toList]

/-- The first line feed ends the first piece. -/
theorem pieces_append {s : String} (h : '\n' ∉ s.toList) (t : String) :
    pieces (s ++ "\n" ++ t) = (s ++ "\n") :: pieces t := by
  have hfeed : (s ++ "\n" ++ t).toList = s.toList ++ ['\n'] ++ t.toList := by
    rw [String.toList_append, String.toList_append]
    rfl
  have hpiece : String.ofList (s.toList ++ ['\n']) = s ++ "\n" := by
    rw [String.ofList_append, String.ofList_toList]
  rw [pieces_eq, hfeed, divide_append, divide_concat h, List.singleton_append, List.map_cons,
    hpiece, ← pieces_eq]

/-- A text has no line feed, or a first one. -/
theorem exists_first_lineFeed {s : String} (h : '\n' ∈ s.toList) :
    ∃ a b, s = a ++ "\n" ++ b ∧ '\n' ∉ a.toList := by
  obtain ⟨a, b, hs, ha⟩ := List.eq_append_cons_of_mem h
  refine ⟨String.ofList a, String.ofList b, ?_, by rwa [String.toList_ofList]⟩
  apply String.toList_inj.mp
  simp [hs]

/-! ## Bytes of pieces -/

theorem decode?_encode (s : String) : decode? (encode s) = some s :=
  decode?_eq_some_iff.mpr rfl

theorem encode_empty : encode "" = [] := by
  simp [encode_eq_flatMap]

theorem encode_ne_nil {s : String} (hs : s ≠ "") : encode s ≠ [] := by
  intro h
  have hdecode := decode?_encode s
  rw [h, ← encode_empty, decode?_encode] at hdecode
  exact hs (Option.some.inj hdecode).symm

theorem encode_append (s t : String) : encode (s ++ t) = encode s ++ encode t := by
  simp [encode_eq_flatMap]

theorem encode_lineFeed : encode "\n" = [lineFeed] := by
  rw [encode_eq_flatMap]
  decide

theorem lineFeed_not_mem_encode {s : String} (h : '\n' ∉ s.toList) : lineFeed ∉ encode s := by
  rw [encode_eq_flatMap]
  intro hmem
  obtain ⟨c, hc, hbyte⟩ := List.mem_flatMap.mp hmem
  obtain rfl := lineFeed_mem_utf8EncodeChar hbyte
  exact h hc

theorem cutLine_of_not_mem {bytes : List UInt8} (h : lineFeed ∉ bytes) :
    cutLine bytes = (bytes, []) := by
  induction bytes with
  | nil => rfl
  | cons b bytes ih =>
    rw [List.mem_cons, not_or] at h
    obtain ⟨hb, hbytes⟩ := h
    rw [cutLine, if_neg (Ne.symm hb), ih hbytes]

theorem cutLine_append_lineFeed {bytes : List UInt8} (h : lineFeed ∉ bytes) (rest : List UInt8) :
    cutLine (bytes ++ [lineFeed] ++ rest) = (bytes ++ [lineFeed], rest) := by
  induction bytes with
  | nil => rfl
  | cons b bytes ih =>
    rw [List.mem_cons, not_or] at h
    obtain ⟨hb, hbytes⟩ := h
    rw [List.cons_append, List.cons_append, cutLine, if_neg (Ne.symm hb), ih hbytes]

/-- **Bytes are cut where the text is divided.** -/
theorem exists_cutLine_encode {s : String} (hs : s ≠ "") :
    ∃ piece rest, pieces s = piece :: pieces rest ∧
      cutLine (encode s) = (encode piece, encode rest) := by
  by_cases h : '\n' ∈ s.toList
  · obtain ⟨a, b, rfl, ha⟩ := exists_first_lineFeed h
    refine ⟨a ++ "\n", b, pieces_append ha b, ?_⟩
    rw [encode_append, encode_append, encode_lineFeed]
    exact cutLine_append_lineFeed (lineFeed_not_mem_encode ha) (encode b)
  · -- the last piece has no line feed, and nothing follows it
    refine ⟨s, "", pieces_of_not_mem hs h, ?_⟩
    rw [encode_empty]
    exact cutLine_of_not_mem (lineFeed_not_mem_encode h)

end Text

/-- **The first line of a stream is that of its text**, and the text of what follows has the
other lines. -/
theorem ByteStream.exists_next_encode {text : String} (h : text ≠ "") :
    ∃ line rest, Text.lines text = line :: Text.lines rest ∧
      next ⟨Text.encode text⟩ = (.line line, ⟨Text.encode rest⟩) := by
  obtain ⟨piece, rest, hpieces, hcut⟩ := Text.exists_cutLine_encode h
  refine ⟨Text.stripEnd piece, rest, ?_, ?_⟩
  · rw [Text.lines, hpieces, List.map_cons, Text.lines]
  · rcases hbytes : Text.encode text with _ | ⟨b, bytes⟩
    · exact absurd hbytes (Text.encode_ne_nil h)
    · rw [hbytes] at hcut
      simp only [next, hcut, Text.decode?_encode]

end Scriptling
