import Scriptling.Proofs.Interpreter.Channels

/-!
# Output streams

An output stream sends lines to a destination, in pieces and in order. It may hold pieces back, and
a flush sends on what is held back and does nothing else (`OutputStream`). A destination behind it
does not learn of flushes. An output with room for so many lines, in which every flush makes new
room, is therefore not a stream.

What a stream comes to is its destination once all that is held back was sent
(`OutputStream.Settles`). If flushing never fails there is such a destination at any time. Flushing
leaves it as it is, and a line changes it, and is taken or not, as if nothing had ever been held
back (`OutputStream.Settles.write`). So it makes no difference when a stream is flushed.

The outputs for lines and for text are streams that hold nothing back. A stream that does so is
`BufferedText`.
-/

namespace Scriptling

section

variable {κ δ : Type}

/-- Sends pieces to a destination up to the first one that fails: whether they were taken, those
that were not, and the destination after that. -/
def sendAll (send : δ → κ → Except WriteError Unit × δ) :
    δ → List κ → Except WriteError Unit × List κ × δ
  | d, [] => (.ok (), [], d)
  | d, k :: ks =>
    match send d k with
    | (.ok (), d) => sendAll send d ks
    | (.error why, d) => (.error why, k :: ks, d)

/-- What comes behind pieces that were taken is sent after them. -/
theorem sendAll_append {send : δ → κ → Except WriteError Unit × δ} {d e : δ} {ks : List κ}
    (h : sendAll send d ks = (.ok (), [], e)) (ls : List κ) :
    sendAll send d (ks ++ ls) = sendAll send e ls := by
  induction ks generalizing d with
  | nil =>
    obtain rfl : d = e := congrArg (·.2.2) h
    rfl
  | cons k ks ih =>
    rw [List.cons_append, sendAll]
    rw [sendAll] at h
    rcases hk : send d k with ⟨why | _, d'⟩ <;> rw [hk] at h
    · cases h
    · exact ih h

end

/-- What is known of an output that sends pieces to a destination. -/
structure OutputStream (ο κ δ : Type) [LineSink ο] where
  /-- the pieces of a line -/
  pieces : String → List κ
  /-- how the destination takes a piece, if it does -/
  send : δ → κ → Except WriteError Unit × δ
  /-- the destination after what was sent so far -/
  sent : ο → δ
  /-- the pieces that are held back -/
  held : ο → List κ
  /-- what is held back of these pieces if the first of them was not taken -/
  kept : List κ → List κ
  /-- of what is held back and the pieces of a line, some are sent and the others held back -/
  write_ok {o : ο} {line : String} : (LineSink.write o line).1 = .ok () → ∃ now,
    held o ++ pieces line = now ++ held (LineSink.write o line).2 ∧
      sendAll send (sent o) now = (.ok (), [], sent (LineSink.write o line).2)
  /-- a line is not taken if the destination does not take all that there is to be sent -/
  write_error {o : ο} {line : String} {why : WriteError} :
    (LineSink.write o line).1 = .error why → ∃ left,
      sendAll send (sent o) (held o ++ pieces line) =
        (.error why, left, sent (LineSink.write o line).2) ∧
      held (LineSink.write o line).2 = kept left
  /-- all that is held back is sent -/
  flush_ok {o : ο} : (LineSink.flush o).1 = .ok () →
    sendAll send (sent o) (held o) = (.ok (), [], sent (LineSink.flush o).2) ∧
      held (LineSink.flush o).2 = []

namespace OutputStream

variable {ο κ δ : Type} [LineSink ο] (s : OutputStream ο κ δ)

/-- The destination once all that is held back was sent. -/
def Settles (o : ο) (d : δ) : Prop :=
  sendAll s.send (s.sent o) (s.held o) = (.ok (), [], d)

/-- The two outputs come to the same destination. -/
def Alike (o o' : ο) : Prop :=
  ∃ d, s.Settles o d ∧ s.Settles o' d

/-- The two outputs have sent the same, and nothing is held back. -/
structure AllSent (o o' : ο) : Prop where
  /-- the same was sent -/
  sent : s.sent o = s.sent o'
  /-- nothing is held back -/
  held : s.held o = [] ∧ s.held o' = []

/-- Whether a line is taken where nothing is held back, and the destination after that. -/
def take (d : δ) (line : String) : Except WriteError Unit × δ :=
  match sendAll s.send d (s.pieces line) with
  | (.ok (), _, d) => (.ok (), d)
  | (.error why, left, d) => (.error why, (sendAll s.send d (s.kept left)).2.2)

variable {s} {o o' : ο} {d : δ}

/-- If nothing is held back, the destination is what it comes to. -/
theorem Settles.sent_eq (h : s.Settles o d) (hheld : s.held o = []) : s.sent o = d := by
  rw [Settles, hheld] at h
  exact congrArg (·.2.2) h

theorem Alike.allSent (h : s.Alike o o') (hheld : s.held o = [] ∧ s.held o' = []) :
    s.AllSent o o' := by
  obtain ⟨d, ho, ho'⟩ := h
  exact ⟨(ho.sent_eq hheld.1).trans (ho'.sent_eq hheld.2).symm, hheld⟩

variable (hflush : ∀ o : ο, (LineSink.flush o).1 = .ok ())

include hflush

theorem held_flush (o : ο) : s.held (LineSink.flush o).2 = [] :=
  (s.flush_ok (hflush o)).2

theorem settles_flush (o : ο) : s.Settles o (s.sent (LineSink.flush o).2) :=
  (s.flush_ok (hflush o)).1

/-- A flush leaves the destination as it is. -/
theorem Settles.flush (h : s.Settles o d) : s.Settles (LineSink.flush o).2 d := by
  have hsent : s.sent (LineSink.flush o).2 = d :=
    congrArg (·.2.2) ((settles_flush hflush o).symm.trans h)
  rw [Settles, held_flush hflush, hsent]
  rfl

/-- **Nothing is noticed of what is held back.** -/
theorem Settles.write (h : s.Settles o d) (line : String) :
    (LineSink.write o line).1 = (s.take d line).1 ∧
      s.Settles (LineSink.write o line).2 (s.take d line).2 := by
  -- what there is to send comes to the pieces of the line, sent after those held back
  have hline := sendAll_append h (s.pieces line)
  have hsettles := settles_flush (s := s) hflush (LineSink.write o line).2
  rcases hwrite : (LineSink.write o line).1 with why | _
  · obtain ⟨left, hsend, hheld⟩ := s.write_error hwrite
    rw [hline] at hsend
    have hkept := hsettles
    rw [Settles, hheld] at hkept
    have htake : s.take d line =
        (.error why, s.sent (LineSink.flush (LineSink.write o line).2).2) := by
      simp only [take, hsend, hkept]
    rw [htake]
    exact ⟨rfl, hsettles⟩
  · obtain ⟨now, hall, hsend⟩ := s.write_ok hwrite
    rw [hall, sendAll_append hsend, hsettles] at hline
    have htake : s.take d line =
        (.ok (), s.sent (LineSink.flush (LineSink.write o line).2).2) := by
      simp only [take, ← hline]
    rw [htake]
    exact ⟨rfl, hsettles⟩

theorem alike_refl (o : ο) : s.Alike o o :=
  ⟨_, settles_flush hflush o, settles_flush hflush o⟩

/-- It makes no difference when a stream is flushed. -/
theorem Alike.flush_left (h : s.Alike o o') : s.Alike (LineSink.flush o).2 o' := by
  obtain ⟨d, ho, ho'⟩ := h
  exact ⟨d, ho.flush hflush, ho'⟩

theorem Alike.flush_right (h : s.Alike o o') : s.Alike o (LineSink.flush o').2 := by
  obtain ⟨d, ho, ho'⟩ := h
  exact ⟨d, ho, ho'.flush hflush⟩

/-- **Streams that come to the same take the same lines.** -/
theorem coupled_alike : LineSink.Coupled s.Alike where
  write := by
    rintro o o' line ⟨d, ho, ho'⟩
    obtain ⟨hresult, hafter⟩ := ho.write hflush line
    obtain ⟨hresult', hafter'⟩ := ho'.write hflush line
    exact ⟨hresult.trans hresult'.symm, _, hafter, hafter'⟩
  flush := by
    rintro o o' ⟨d, ho, ho'⟩
    exact ⟨(hflush o).trans (hflush o').symm, d, ho.flush hflush, ho'.flush hflush⟩

end OutputStream

/-! ## Streams of lines and of text -/

/-- Lines that are kept. Each is a piece. -/
def LineBuffer.stream : OutputStream LineBuffer String (List String) where
  pieces line := [line]
  send ls line := (.ok (), ls ++ [line])
  sent := lines
  held _ := []
  kept := id
  write_ok {o line} _ := ⟨[line], rfl, by rw [lines_write]; rfl⟩
  write_error h := by cases h
  flush_ok _ := ⟨rfl, rfl⟩

/-- A text that takes every character. -/
def pushChar (text : String) (c : Char) : Except WriteError Unit × String :=
  (.ok (), text.push c)

theorem sendAll_pushChar (text : String) (cs : List Char) :
    sendAll pushChar text cs = (.ok (), [], text ++ .ofList cs) := by
  induction cs generalizing text with
  | nil => simp [sendAll]
  | cons c cs ih =>
    have htext : text.push c ++ .ofList cs = text ++ .ofList (c :: cs) := by
      rw [← String.toList_inj]
      simp
    rw [← htext, ← ih]
    rfl

/-- Text that is kept. The pieces of a line are its characters, with a line feed at the end. -/
def Transcript.stream : OutputStream Transcript Char String where
  pieces line := (line ++ "\n").toList
  send := pushChar
  sent := text
  held _ := []
  kept := id
  write_ok {o line} _ := by
    refine ⟨(line ++ "\n").toList, by simp, ?_⟩
    rw [sendAll_pushChar, String.ofList_toList, ← String.append_assoc]
    rfl
  write_error h := by cases h
  flush_ok _ := ⟨rfl, rfl⟩

/-- Text of which so many characters may be held back. -/
structure BufferedText (capacity : Nat) where
  /-- the text that was sent -/
  text : String
  /-- what is held back -/
  held : List Char

namespace BufferedText

variable {capacity : Nat}

/-- Sends all that is held back. -/
def sendHeld (b : BufferedText capacity) : BufferedText capacity :=
  ⟨b.text ++ .ofList b.held, []⟩

instance : LineSink (BufferedText capacity) where
  write b line :=
    let more : BufferedText capacity := { b with held := b.held ++ (line ++ "\n").toList }
    (.ok (), if more.held.length ≤ capacity then more else more.sendHeld)
  flush b := (.ok (), b.sendHeld)

/-- The pieces are characters, as for a text that holds nothing back. -/
def stream : OutputStream (BufferedText capacity) Char String where
  pieces line := (line ++ "\n").toList
  send := pushChar
  sent := text
  held := held
  kept := id
  write_ok {o line} _ := by
    by_cases h : (o.held ++ (line ++ "\n").toList).length ≤ capacity
    · simp only [LineSink.write, h, if_true]
      exact ⟨[], rfl, rfl⟩
    · simp only [LineSink.write, h, if_false, sendHeld]
      exact ⟨_, (List.append_nil _).symm, sendAll_pushChar o.text _⟩
  write_error h := by cases h
  flush_ok {o} _ := ⟨sendAll_pushChar o.text o.held, rfl⟩

end BufferedText

end Scriptling
