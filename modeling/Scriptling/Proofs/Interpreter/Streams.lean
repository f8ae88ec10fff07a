import Mathlib.Data.List.Forall2
import Scriptling.Proofs.Text.Lines
import Scriptling.Proofs.Text.Runs

/-!
# Streams of bytes

A stream is read by asking for lines until there is none (`LineSource.Yields`). That comes to an
end, and there is one answer for each piece of the stream, which is divided behind its line feeds
(`ByteStream.readings_eq`). What the answer is depends on the bytes of the piece alone
(`Reading.Of`): the text that they are, without the line feeds and carriage returns at its end, or
that they are no text.

A line that was read has no line feed and no carriage return at its end (`Reading.Of.clean`), since
a line feed ends its piece. So lines that have one are not read back where they are written, and all
others are (`ByteStream.readings_round_trip`).
-/

namespace Scriptling

/-- With these answers, and no others, lines are asked for until there is none. -/
inductive LineSource.Yields {ι : Type} [LineSource ι] : ι → List Reading → Prop
  /-- there is none -/
  | finished {input : ι} : (next input).1 = .finished → Yields input []
  /-- there is an answer, and then others -/
  | more {input : ι} {rs : List Reading} : (next input).1 ≠ .finished →
      Yields (next input).2 rs → Yields input ((next input).1 :: rs)

/-! ## Lines without their ends -/

/-- The line is the text without the line feeds and carriage returns at its end. -/
def Text.Stripped (text line : String) : Prop :=
  ∃ run : String, text = line ++ run ∧ (∀ c ∈ run.toList, c = '\n' ∨ c = '\r') ∧
    ∀ c ∈ line.toList.getLast?, c ≠ '\n' ∧ c ≠ '\r'

theorem Text.stripEnd_eq_iff {text line : String} : stripEnd text = line ↔ Stripped text line := by
  rw [stripEnd, ← String.toList_inj, String.toList_ofList, dropWhileEnd_eq_iff]
  constructor
  · rintro ⟨run, htext, hrun, hlast⟩
    refine ⟨.ofList run, ?_, ?_, ?_⟩
    · rw [← String.toList_inj, String.toList_append, String.toList_ofList, htext]
    · simpa using hrun
    · simpa using hlast
  · rintro ⟨run, rfl, hrun, hlast⟩
    refine ⟨run.toList, String.toList_append .., ?_, ?_⟩
    · simpa using hrun
    · simpa using hlast

/-- A line that ends neither in a line feed nor in a carriage return is what is left of it when a
line feed was put behind it. -/
theorem Text.stripEnd_append_lineFeed {line : String}
    (h : ∀ c ∈ line.toList.getLast?, c ≠ '\n' ∧ c ≠ '\r') : stripEnd (line ++ "\n") = line :=
  stripEnd_eq_iff.mpr ⟨"\n", rfl, by simp, h⟩

/-! ## Answers for pieces -/

/-- The answer for a piece of a stream. -/
inductive Reading.Of (piece : List UInt8) : Reading → Prop
  /-- it is text -/
  | line {text line : String} : piece = Text.encode text → Text.Stripped text line →
      Of piece (.line line)
  /-- it is none -/
  | notText : (∀ text, piece ≠ Text.encode text) → Of piece (.failed .notText)

/-- What a piece of a stream is read as. -/
def Reading.ofPiece (piece : List UInt8) : Reading :=
  match Text.decode? piece with
  | some text => .line (Text.stripEnd text)
  | none => .failed .notText

theorem Reading.of_ofPiece (piece : List UInt8) : Reading.Of piece (.ofPiece piece) := by
  rw [ofPiece]
  rcases hdecode : Text.decode? piece with _ | text
  · refine .notText fun text htext => ?_
    rw [Text.decode?_eq_some_iff.mpr htext] at hdecode
    cases hdecode
  · exact .line (Text.decode?_eq_some_iff.mp hdecode) (Text.stripEnd_eq_iff.mp rfl)

theorem Reading.ofPiece_encode (text : String) :
    Reading.ofPiece (Text.encode text) = .line (Text.stripEnd text) := by
  rw [ofPiece, Text.decode?_encode]

/-- **A line that is read is clean.** A line feed in a piece is its last byte. -/
theorem Reading.Of.clean {bytes piece : List UInt8} {line : String}
    (h : Reading.Of piece (.line line)) (hpiece : piece ∈ Text.divide Text.lineFeed bytes) :
    '\n' ∉ line.toList ∧ line.toList.getLast? ≠ some '\r' := by
  obtain ⟨rfl, run, rfl, -, hlast⟩ := h
  refine ⟨fun hmem => ?_, fun hcr => (hlast '\r' hcr).2 rfl⟩
  obtain ⟨a, b, rfl, -⟩ := Text.exists_first_lineFeed hmem
  -- nothing comes behind this line feed, and so the line ends in it
  have hb : b ++ run = "" := by
    by_contra hne
    rw [String.append_assoc, Text.encode_append, Text.encode_append, Text.encode_lineFeed,
      List.append_assoc, List.singleton_append] at hpiece
    exact Text.encode_ne_nil hne (Text.eq_nil_of_mem_divide hpiece)
  obtain ⟨rfl, -⟩ := String.append_eq_empty_iff.mp hb
  exact (hlast '\n' (by simp)).1 rfl

/-! ## Reading -/

theorem Text.divide_eq_cutLine {bytes : List UInt8} (h : bytes ≠ []) :
    divide lineFeed bytes = (cutLine bytes).1 :: divide lineFeed (cutLine bytes).2 := by
  by_cases hmem : lineFeed ∈ bytes
  · obtain ⟨front, behind, rfl, hfront⟩ := List.eq_append_cons_of_mem hmem
    have hfeed : front ++ lineFeed :: behind = front ++ [lineFeed] ++ behind := by simp
    rw [hfeed, cutLine_append_lineFeed hfront, divide_append, divide_concat hfront]
    rfl
  · rw [cutLine_of_not_mem hmem, divide_of_not_mem h hmem]
    rfl

namespace ByteStream

open Text (divide lineFeed encode)

theorem next_nil : next ⟨[]⟩ = (.finished, ⟨[]⟩) := rfl

theorem next_eq {bytes : List UInt8} (h : bytes ≠ []) :
    next ⟨bytes⟩ = (.ofPiece (Text.cutLine bytes).1, ⟨(Text.cutLine bytes).2⟩) := by
  rcases bytes with _ | ⟨b, bytes⟩
  · exact absurd rfl h
  · rcases hdecode : Text.decode? (Text.cutLine (b :: bytes)).1 with _ | text <;>
      simp only [next, Reading.ofPiece, hdecode]

theorem next_eq_finished_iff {s : ByteStream} : s.next.1 = .finished ↔ s.rest = [] := by
  obtain ⟨bytes⟩ := s
  by_cases h : bytes = []
  · simp [h, next_nil]
  · rw [next_eq h, Reading.ofPiece]
    split <;> simp [h]

theorem yields_readings (s : ByteStream) : LineSource.Yields s s.readings := by
  fun_induction readings s with
  | case1 s h => exact .finished h
  | case2 s h ih => exact .more h ih

/-- **One answer for each piece.** -/
theorem readings_eq (s : ByteStream) :
    s.readings = (divide lineFeed s.rest).map Reading.ofPiece := by
  fun_induction readings s with
  | case1 s h =>
    rw [next_eq_finished_iff.mp h]
    rfl
  | case2 s h ih =>
    have hne : s.rest ≠ [] := fun hnil => h (next_eq_finished_iff.mpr hnil)
    obtain ⟨bytes⟩ := s
    rw [ih, Text.divide_eq_cutLine hne, List.map_cons, next_eq hne]

theorem readings_append (front behind : List UInt8) :
    readings ⟨front ++ [lineFeed] ++ behind⟩ =
      readings ⟨front ++ [lineFeed]⟩ ++ readings ⟨behind⟩ := by
  simp only [readings_eq, Text.divide_append, List.map_append]

/-- What is read from a stream is clean. -/
theorem clean_of_mem_readings {s : ByteStream} {line : String} (h : .line line ∈ s.readings) :
    '\n' ∉ line.toList ∧ line.toList.getLast? ≠ some '\r' := by
  rw [readings_eq] at h
  obtain ⟨piece, hpiece, hline⟩ := List.mem_map.mp h
  have hof := Reading.of_ofPiece piece
  rw [hline] at hof
  exact hof.clean hpiece

/-! ## Writing -/

theorem readings_line {line : String} (hfeed : '\n' ∉ line.toList)
    (hcr : line.toList.getLast? ≠ some '\r') :
    readings ⟨encode line ++ [lineFeed]⟩ = [.line line] := by
  have hlast : ∀ c ∈ line.toList.getLast?, c ≠ '\n' ∧ c ≠ '\r' := by
    intro c hc
    constructor
    · rintro rfl
      exact hfeed (List.mem_of_getLast? hc)
    · rintro rfl
      exact hcr hc
  rw [readings_eq, Text.divide_concat (Text.lineFeed_not_mem_encode hfeed), List.map_singleton,
    ← Text.encode_lineFeed, ← Text.encode_append, Reading.ofPiece_encode,
    Text.stripEnd_append_lineFeed hlast]

/-- **Clean lines are read back.** -/
theorem readings_lines {lines : List String}
    (h : ∀ line ∈ lines, '\n' ∉ line.toList ∧ line.toList.getLast? ≠ some '\r') :
    readings ⟨encode (String.join (lines.map (· ++ "\n")))⟩ = lines.map .line := by
  induction lines with
  | nil => rw [List.map_nil, String.join_nil, Text.encode_empty, readings_eq]; rfl
  | cons line lines ih =>
    obtain ⟨⟨hfeed, hcr⟩, hlines⟩ := List.forall_mem_cons.mp h
    rw [List.map_cons, String.join_cons, Text.encode_append, Text.encode_append,
      Text.encode_lineFeed, readings_append, readings_line hfeed hcr, ih hlines]
    rfl

end ByteStream

theorem Transcript.text_foldl_line (t : Transcript) (lines : List String) :
    (lines.foldl Transcript.line t).text = t.text ++ String.join (lines.map (· ++ "\n")) := by
  induction lines generalizing t with
  | nil => simp
  | cons line lines ih =>
    rw [List.foldl_cons, ih, List.map_cons, String.join_cons]
    simp [Transcript.line, String.append_assoc]

open Text (divide lineFeed encode) in
/-- **Streams are read and written by lines.** Asking for lines until there is none comes to an end,
with one answer for each piece of the stream, which is divided behind its line feeds: the text of
the piece without the line feeds and carriage returns at its end, or that it is no text. What is
behind a line feed is read as it is alone, whether or not what is in front is text. Lines that are
written are read back exactly if none of them has a line feed or ends in a carriage return. -/
theorem ByteStream.readings_round_trip :
    (∀ bytes : List UInt8, LineSource.Yields (⟨bytes⟩ : ByteStream) (readings ⟨bytes⟩) ∧
      List.Forall₂ Reading.Of (divide lineFeed bytes) (readings ⟨bytes⟩)) ∧
    (∀ front behind : List UInt8, readings ⟨front ++ [lineFeed] ++ behind⟩ =
      readings ⟨front ++ [lineFeed]⟩ ++ readings ⟨behind⟩) ∧
    ∀ lines : List String,
      readings ⟨encode (lines.foldl Transcript.line .empty).text⟩ = lines.map .line ↔
        ∀ line ∈ lines, '\n' ∉ line.toList ∧ line.toList.getLast? ≠ some '\r' := by
  refine ⟨fun bytes => ⟨yields_readings _, ?_⟩, readings_append, fun lines => ⟨?_, ?_⟩⟩
  · rw [readings_eq, List.forall₂_map_right_iff, List.forall₂_same]
    exact fun piece _ => Reading.of_ofPiece piece
  · intro hread line hline
    apply clean_of_mem_readings
    rw [hread]
    exact List.mem_map_of_mem hline
  · intro hlines
    rw [Transcript.text_foldl_line]
    have hempty : Transcript.empty.text = "" := rfl
    rw [hempty, String.empty_append]
    exact readings_lines hlines

/-- A carriage return is kept within a line, and lost at its end. -/
theorem ByteStream.readings_round_trip_carriageReturn :
    ∃ lines lost : List String, lines = ["a\rb", ""] ∧ lost = ["", "a\r"] ∧
      (∀ line ∈ lines, '\n' ∉ line.toList ∧ line.toList.getLast? ≠ some '\r') ∧
      readings ⟨Text.encode (lines.foldl Transcript.line .empty).text⟩ = lines.map .line ∧
      readings ⟨Text.encode (lost.foldl Transcript.line .empty).text⟩ ≠ lost.map .line := by
  obtain ⟨-, -, hlines⟩ := readings_round_trip
  have hclean : ∀ line ∈ ["a\rb", ""], '\n' ∉ line.toList ∧ line.toList.getLast? ≠ some '\r' := by
    decide
  refine ⟨_, _, rfl, rfl, hclean, (hlines _).mpr hclean, fun hread => ?_⟩
  exact ((hlines _).mp hread "a\r" (by simp)).2 rfl

end Scriptling
