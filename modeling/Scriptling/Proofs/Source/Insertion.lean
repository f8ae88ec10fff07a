import Scriptling.Proofs.Source.Concatenation

/-!
# Layout put in

Blanks and comments may be put in wherever a token starts or stops: the tokens stay the same, and
those behind the place are moved (`scan_insert_layout`).

What is put in starts with a blank. A blank ends every token, so the text in front of it is scanned
as before (`Scans.append_blank`): only a comment would go on, and no comment reaches up to a place
where a token starts or stops. Behind this blank, blanks and comments that are closed can be put in
front of anything (`Pieces.scans`).
-/

namespace Scriptling

open String (utf8Len utf8Len_append)
open Lexeme (Cut)

/-- A row of blanks and of comments, each comment closed by a line feed. -/
inductive Pieces : List Char → Prop
  /-- nothing -/
  | nil : Pieces []
  /-- a blank first -/
  | blank {c : Char} {more : List Char} (hc : isBlank c = true) (hmore : Pieces more) :
      Pieces (c :: more)
  /-- a comment first -/
  | comment {run more : List Char} (hrun : '\n' ∉ run) (hmore : Pieces more) :
      Pieces ('/' :: '/' :: run ++ '\n' :: more)

/-- A blank, and then any row of blanks and closed comments. -/
def IsLayout (text : List Char) : Prop :=
  ∃ c more, text = c :: more ∧ isBlank c = true ∧ Pieces more

/-- The token, moved by `k` unless it stops at or before `p`. -/
def Placed.makeRoom (p k : Nat) (t : Placed) : Placed :=
  if t.span.stop ≤ p then t else t.relocate (· + k)

theorem Pieces.of_blanks {run : List Char} (h : ∀ c ∈ run, isBlank c = true) : Pieces run := by
  induction run with
  | nil => exact .nil
  | cons c run ih =>
    obtain ⟨hc, hrun⟩ := List.forall_mem_cons.mp h
    exact .blank hc (ih hrun)

section

variable {rest : List Char} {offset : Nat} {text : List Char} {ts us : List Placed}

/-- **Pieces in front** move what follows. -/
theorem Pieces.scans {w : List Char} (hw : Pieces w)
    (hrest : ∀ d ∈ rest.head?, isBlank d = false)
    (h : Scans rest (offset + utf8Len w) text ts) : Scans rest offset (w ++ text) ts := by
  induction hw generalizing offset with
  | nil => exact h
  | blank hc _ ih =>
    rw [add_utf8Len_cons] at h
    exact Scans.blank_cons hc hrest (ih h)
  | @comment run more hrun _ ih =>
    have hcut : Cut .skipped ('/' :: '/' :: run) (('\n' :: (more ++ text)) ++ rest) :=
      .comment hrun (by simp)
    rw [utf8Len_append, ← Nat.add_assoc, add_utf8Len_cons] at h
    rw [List.append_assoc]
    exact .skip hcut (Scans.blank_cons (by decide) hrest (ih h))

namespace Scans

/-- **A blank behind** ends a text that was not ended by a line feed, so the scans of both sides make
one scan. Blanks at the end of the text join those behind it. -/
theorem append_blank {b d : Char} {more rest' : List Char} (h : Scans (d :: rest') offset text ts)
    (hd : d ≠ '\n') (hb : isBlank b = true) (hrest : ∀ d ∈ rest.head?, isBlank d = false)
    (hmore : Scans rest (offset + utf8Len text) (b :: more) us) :
    Scans rest offset (text ++ b :: more) (ts ++ us) := by
  induction h with
  | done => exact hmore
  | @skip offset lexeme text ts hcut htext ih =>
    rw [utf8Len_append, ← Nat.add_assoc] at hmore
    rw [List.append_assoc]
    cases text with
    | cons e text => exact .skip (hcut.follow (.inl rfl)) (ih hmore)
    | nil =>
      obtain rfl := htext.eq_nil
      cases hcut with
      | @blanks c run _ hc hrun _ =>
        have hpieces : Pieces (c :: run) := .of_blanks (List.forall_mem_cons.mpr ⟨hc, hrun⟩)
        exact hpieces.scans hrest hmore
      | comment _ hstop =>
        -- a comment would be followed by a line feed
        exact absurd (hstop d rfl) hd
  | @token offset lexeme text t ts hcut htext ih =>
    rw [utf8Len_append, ← Nat.add_assoc] at hmore
    rw [List.append_assoc]
    cases text with
    | cons e text => exact .token (hcut.follow (.inl rfl)) (ih hmore)
    | nil => exact .token (hcut.before_blank hb (more ++ rest)) (ih hmore)

/-- Layout between two texts moves the second one. -/
theorem insert_layout {d : Char} {behind rest' w : List Char} (hw : IsLayout w)
    (h : Scans (d :: rest') offset text ts) (hd : d ≠ '\n')
    (hbehind : Scans [] (offset + utf8Len text) behind us) :
    Scans [] offset (text ++ (w ++ behind))
      (ts ++ us.map (Placed.relocate (· + utf8Len w))) := by
  obtain ⟨b, more, rfl, hb, hmore⟩ := hw
  have hpieces : Pieces (b :: more) := .blank hb hmore
  have hscans := hpieces.scans (by simp) (hbehind.shift (utf8Len (b :: more)))
  exact h.append_blank hd hb (by simp) hscans

/-! ## Places where tokens start and stop -/

theorem stop_le (h : Scans rest offset text ts) :
    ∀ t ∈ ts, t.span.stop ≤ offset + utf8Len text := by
  induction h with
  | done => simp
  | skip _ _ ih =>
    intro t ht
    rw [utf8Len_append, ← Nat.add_assoc]
    exact ih t ht
  | token _ _ ih =>
    intro t ht
    rw [utf8Len_append, ← Nat.add_assoc]
    obtain rfl | ht := List.mem_cons.mp ht
    · exact Nat.le_add_right ..
    · exact ih t ht

/-- The text in two where a token starts. -/
theorem split_start {pre post : List Placed} {t : Placed}
    (h : Scans rest offset text (pre ++ t :: post)) :
    ∃ before c behind, text = before ++ c :: behind ∧ isBlank c = false ∧
      t.span.start = offset + utf8Len before ∧ Scans (c :: behind ++ rest) offset before pre ∧
      Scans rest (offset + utf8Len before) (c :: behind) (t :: post) := by
  generalize hts : pre ++ t :: post = ts at h
  induction h generalizing pre with
  | done => simp at hts
  | @skip offset lexeme text ts hcut _ ih =>
    obtain ⟨before, c, behind, rfl, hc, hstart, hbefore, hbehind⟩ := ih hts
    rw [Nat.add_assoc, ← utf8Len_append] at hstart hbehind
    rw [List.append_assoc] at hcut
    exact ⟨lexeme ++ before, c, behind, by simp, hc, hstart, .skip hcut hbefore, hbehind⟩
  | @token offset lexeme text u ts hcut htext ih =>
    cases pre with
    | nil =>
      obtain ⟨rfl, rfl⟩ := List.cons.inj hts
      obtain ⟨c, cs, rfl⟩ := hcut.exists_cons
      exact ⟨[], c, cs ++ text, rfl, hcut.isBlank_head, rfl, .done _, .token hcut htext⟩
    | cons v pre =>
      obtain ⟨rfl, htail⟩ := List.cons.inj hts
      obtain ⟨before, c, behind, rfl, hc, hstart, hbefore, hbehind⟩ := ih htail
      rw [Nat.add_assoc, ← utf8Len_append] at hstart hbehind
      rw [List.append_assoc] at hcut
      exact ⟨lexeme ++ before, c, behind, by simp, hc, hstart, .token hcut hbefore, hbehind⟩

/-- The text in two where a token starts or stops. The text in front could be followed by something
other than a line feed. -/
theorem exists_seam {t : Placed} {p : Nat} (h : Scans [] offset text ts) (ht : t ∈ ts)
    (hp : p = t.span.start ∨ p = t.span.stop) :
    ∃ before behind pre post d rest', text = before ++ behind ∧ ts = pre ++ post ∧
      p = offset + utf8Len before ∧ d ≠ '\n' ∧ Scans (d :: rest') offset before pre ∧
      Scans [] (offset + utf8Len before) behind post := by
  obtain ⟨pre, post, rfl⟩ := List.append_of_mem ht
  obtain rfl | rfl := hp
  · obtain ⟨before, c, behind, rfl, hc, hstart, hbefore, hbehind⟩ := h.split_start
    have hfeed : c ≠ '\n' := by
      rintro rfl
      cases hc
    rw [List.append_nil] at hbefore
    exact ⟨before, c :: behind, pre, t :: post, c, behind, rfl, rfl, hstart, hfeed, hbefore,
      hbehind⟩
  · obtain ⟨c, cs, behind, rfl, hbefore, hbehind, hstop⟩ :=
      h.cut_behind (List.append_cons pre t post) (by simp)
    exact ⟨c :: cs, behind, pre ++ [t], post, ' ', [], rfl, by simp, hstop t (by simp), by decide,
      hbefore [' '] (by simp [Lexeme.Stops]), hbehind⟩

end Scans

/-- Room is made for tokens behind the place only. -/
theorem Placed.map_makeRoom {p k : Nat} (hts : ∀ t ∈ ts, t.span.stop ≤ p)
    (hus : ∀ t ∈ us, p < t.span.stop) :
    (ts ++ us).map (Placed.makeRoom p k) = ts ++ us.map (Placed.relocate (· + k)) := by
  have hleft : ts.map (Placed.makeRoom p k) = ts.map id :=
    List.map_congr_left fun t ht => if_pos (hts t ht)
  have hright : us.map (Placed.makeRoom p k) = us.map (Placed.relocate (· + k)) :=
    List.map_congr_left fun t ht => if_neg (Nat.not_le.mpr (hus t ht))
  rw [List.map_append, hleft, hright, List.map_id]

end

/-- **Layout can be put in where a token starts or stops.** Such a place is a boundary of characters
with whole tokens on both sides, and with a blank and then any blanks and closed comments put in there,
the source is scanned to the same tokens: those that stop at or before the place stay, and the others
are moved by the bytes that were put in. -/
theorem scan_insert_layout (source : String) (ts : List Placed) (p : Nat)
    (h : scan source.toList = .ok ts) (hp : ∃ t ∈ ts, p = t.span.start ∨ p = t.span.stop) :
    ∃ before behind : String, source = before ++ behind ∧ before.utf8ByteSize = p ∧
      (∀ t ∈ ts, t.span.stop ≤ p ∨ p ≤ t.span.start) ∧
      ∀ w : String, IsLayout w.toList →
        scan (before ++ w ++ behind).toList =
          .ok (ts.map (Placed.makeRoom p w.utf8ByteSize)) := by
  have hscans := scan_eq_ok_iff.mp h
  obtain ⟨t, ht, hp⟩ := hp
  obtain ⟨before, behind, pre, post, d, rest', hsource, rfl, rfl, hd, hbefore, hbehind⟩ :=
    hscans.exists_seam ht hp
  rw [Nat.zero_add] at hbehind ⊢
  have hpre : ∀ t ∈ pre, t.span.stop ≤ utf8Len before := by
    intro t ht
    simpa using hbefore.stop_le t ht
  have hpost : ∀ t ∈ post, utf8Len before ≤ t.span.start := hbehind.offset_le
  refine ⟨.ofList before, .ofList behind, ?_, ?_, ?_, fun w hw => ?_⟩
  · rw [← String.ofList_append, ← hsource, String.ofList_toList]
  · rw [← String.utf8ByteSize_ofList]
  · intro t ht
    obtain ht | ht := List.mem_append.mp ht
    · exact Or.inl (hpre t ht)
    · exact Or.inr (hpost t ht)
  · have hlt : ∀ t ∈ post, utf8Len before < t.span.stop := by
      intro t ht
      exact (hpost t ht).trans_lt (hbehind.ordered.start_lt_stop t ht)
    have hinsert := hbefore.insert_layout hw hd (by rwa [Nat.zero_add])
    rw [← String.utf8ByteSize_ofList w.toList, String.ofList_toList] at hinsert
    rw [Placed.map_makeRoom hpre hlt]
    apply scan_eq_ok_iff.mpr
    simpa using hinsert

/-- A comment behind a slash, with a blank between them so that the slash does not join it. -/
theorem scan_insert_layout_slash :
    ∃ (source w : String) (ts : List Placed), source = "x/2" ∧ w = "\t// é\n" ∧
      ts = [⟨.name "x", ⟨0, 1⟩⟩, ⟨.mark .slash, ⟨1, 2⟩⟩, ⟨.int 2, ⟨2, 3⟩⟩] ∧
      scan source.toList = .ok ts ∧ (∃ t ∈ ts, 2 = t.span.start ∨ 2 = t.span.stop) ∧
      IsLayout w.toList ∧
      ∃ before behind : String, source = before ++ behind ∧ before.utf8ByteSize = 2 ∧
        (∀ t ∈ ts, t.span.stop ≤ 2 ∨ 2 ≤ t.span.start) ∧
        scan (before ++ w ++ behind).toList =
          .ok [⟨.name "x", ⟨0, 1⟩⟩, ⟨.mark .slash, ⟨1, 2⟩⟩, ⟨.int 2, ⟨9, 10⟩⟩] := by
  let ts : List Placed := [⟨.name "x", ⟨0, 1⟩⟩, ⟨.mark .slash, ⟨1, 2⟩⟩, ⟨.int 2, ⟨2, 3⟩⟩]
  have hscan : scan "x/2".toList = .ok ts := by with_unfolding_all rfl
  have hplace : ∃ t ∈ ts, 2 = t.span.start ∨ 2 = t.span.stop := by decide
  have hcomment : Pieces ('/' :: '/' :: [' ', 'é'] ++ ['\n']) := .comment (by decide) .nil
  have hlayout : IsLayout "\t// é\n".toList := ⟨'\t', "// é\n".toList, rfl, rfl, hcomment⟩
  obtain ⟨before, behind, hsource, hsize, hwhole, hinsert⟩ :=
    scan_insert_layout "x/2" ts 2 hscan hplace
  exact ⟨_, _, ts, rfl, rfl, rfl, hscan, hplace, hlayout, before, behind, hsource, hsize, hwhole,
    hinsert _ hlayout⟩

end Scriptling
