/-
  ScriptModule/Proofs/LineComments.lean
  =====================================
  **Comments to the end of a line.**  A comment behind a number sign goes on to the end of
  its line, whatever stands in it, except for a null character: the comment ends in front of
  it, and what follows on the line is scanned as if no number sign stood there.
-/
import ScriptModule.Proofs.Coverage

namespace ScriptModule

open Lexeme

/-! ### Ends of lines -/

/-- The offset of the first line feed from an offset on, or of the end of the source. -/
def lineEndAt (source : Text) (o : Nat) : Nat := o + lineLength (source.drop o)

/-- The source from an offset to the end of its line. -/
def restOfLine (source : Text) (o : Nat) : Text := source.extract o (lineEndAt source o)

theorem lineLength_cons {c : Char} (hc : c ≠ '\n') (t : Text) :
    lineLength (c :: t) = lineLength t + 1 := by
  simp [lineLength, runLength, hc]

theorem lineLength_append {w : Text} (hw : '\n' ∉ w) (t : Text) :
    lineLength (w ++ t) = w.length + lineLength t := by
  induction w with
  | nil => simp
  | cons c w ih =>
    rw [List.mem_cons, not_or] at hw
    rw [List.cons_append, lineLength_cons (Ne.symm hw.1), ih hw.2, List.length_cons]
    omega

/-! ### What stands around a comment -/

/-- A comment behind a number sign, with the text in front of it, its own characters, and the
    pieces behind it. -/
structure IsLineComment (source : Text) (ts : List Token) (t : Token) (front w : Text)
    (back : List Piece) : Prop where
  source_eq : source = front ++ ('#' :: w ++ textOf back)
  start : t.start.offset = front.length
  stop : t.stop.offset = front.length + ('#' :: w).length
  inside : ∀ c ∈ w, c ≠ '\n' ∧ c ≠ '\x00'
  behind : ∀ c ∈ (textOf back).head?, c = '\n' ∨ c = '\x00'
  spells : ∃ before, Spells before [] back
  tokens : ∃ us, ts = us ++ t :: tokensOf t.stop back

theorem exists_isLineComment {source : Text} {s : Scan} (h : scan source = .ok s) {t : Token}
    (ht : t ∈ s.tokens) (hkind : t.kind = .comment) (hmark : t.text.head? = some '#') :
    ∃ front w back, IsLineComment source s.tokens t front w back := by
  obtain ⟨ps, rfl, hspells, htokens⟩ := exists_pieces h
  rw [htokens] at ht ⊢
  obtain ⟨i, hi⟩ := List.getElem?_of_mem ht
  obtain ⟨front, c, w, l, back, rfl, -, rfl⟩ := exists_lexeme hi
  obtain ⟨-, ⟨-, hread, hlen⟩, hback⟩ := spells_append.mp hspells
  have hstop := token_stop hlen (Position.start.advance (textOf front)) c
  rw [List.append_nil] at hread
  rcases comment_of_read hread hkind with ⟨rfl, hextra⟩ | rfl
  · have hrun := runLength_append_eq.mp (hextra.symm.trans hlen.symm)
    refine ⟨textOf front, w, back, ?_, advance_start_offset _, ?_, ?_, ?_, ⟨_, hback⟩, ?_⟩
    · rw [textOf_append, textOf_cons]
      rfl
    · rw [hstop, advance_offset, advance_start_offset]
    · intro c hc
      simpa using hrun.1 c hc
    · intro c hc
      obtain ⟨r, hr⟩ := List.head?_eq_some_iff.mp hc
      have hstops := hrun.2
      rw [hr] at hstops
      by_contra hother
      rw [not_or] at hother
      simp [Stops, startsWith, hother] at hstops
    · exact ⟨tokensOf Position.start front, by rw [tokensOf_append, tokensOf, hstop]⟩
  · have hhead : (l.token (Position.start.advance (textOf front)) '<' w).text.head? = some '<' := by
      simp [token, Lexeme.text]
    rw [hhead] at hmark
    cases hmark

namespace IsLineComment

variable {source front w : Text} {ts : List Token} {t : Token} {back : List Piece}

theorem newline_not_mem (h : IsLineComment source ts t front w back) : '\n' ∉ '#' :: w := by
  intro hmem
  rcases List.mem_cons.mp hmem with heq | hmem
  · exact absurd heq (by decide)
  · exact (h.inside '\n' hmem).1 rfl

theorem lineEndAt_eq (h : IsLineComment source ts t front w back) :
    lineEndAt source t.start.offset = t.stop.offset + lineLength (textOf back) := by
  rw [lineEndAt, h.start, h.stop, h.source_eq, List.drop_left,
    lineLength_append h.newline_not_mem]
  omega

theorem extract_eq (h : IsLineComment source ts t front w back) :
    source.extract t.start.offset t.stop.offset = '#' :: w := by
  rw [h.start, h.stop, h.source_eq]
  exact extract_mid front ('#' :: w) (textOf back)

theorem getElem?_stop (h : IsLineComment source ts t front w back) :
    source[t.stop.offset]? = (textOf back).head? := by
  rw [h.stop, h.source_eq, ← List.append_assoc, ← List.length_append,
    List.getElem?_append_right (Nat.le_refl _), Nat.sub_self, List.head?_eq_getElem?]

theorem restOfLine_eq (h : IsLineComment source ts t front w back) :
    restOfLine source t.start.offset =
      '#' :: w ++ (textOf back).take (lineLength (textOf back)) := by
  rw [restOfLine, h.lineEndAt_eq, h.start, h.stop, h.source_eq, List.extract_eq_take_drop,
    List.drop_left, Nat.add_assoc, Nat.add_sub_cancel_left, List.take_length_add_append]

/-- The rest of the line goes beyond the comment exactly if it has a null character. -/
theorem null_mem_restOfLine (h : IsLineComment source ts t front w back) :
    '\x00' ∈ restOfLine source t.start.offset ↔ ∃ r, textOf back = '\x00' :: r := by
  have hnull : '\x00' ∉ '#' :: w := by
    intro hmem
    rcases List.mem_cons.mp hmem with heq | hmem
    · exact absurd heq (by decide)
    · exact (h.inside '\x00' hmem).2 rfl
  rw [h.restOfLine_eq, List.mem_append, or_iff_right hnull]
  constructor
  · intro hmem
    cases hback : textOf back with
    | nil =>
      rw [hback] at hmem
      cases hmem
    | cons c r =>
      rcases h.behind c (by rw [hback]; rfl) with rfl | rfl
      · rw [hback] at hmem
        cases hmem
      · exact ⟨r, rfl⟩
  · rintro ⟨r, hr⟩
    rw [hr, lineLength_cons (by decide), List.take_succ_cons]
    exact List.mem_cons_self

theorem stop_eq_iff (h : IsLineComment source ts t front w back) :
    t.stop.offset = lineEndAt source t.start.offset ↔
      '\x00' ∉ restOfLine source t.start.offset := by
  rw [h.null_mem_restOfLine, h.lineEndAt_eq, Nat.left_eq_add]
  constructor
  · rintro hzero ⟨r, hr⟩
    rw [hr, lineLength_cons (by decide)] at hzero
    cases hzero
  · intro hnull
    cases hback : textOf back with
    | nil => rfl
    | cons c r =>
      rcases h.behind c (by rw [hback]; rfl) with rfl | rfl
      · rfl
      · exact absurd ⟨r, hback⟩ hnull

/-- A null character behind a comment starts a token of its own. -/
theorem exists_token_null (h : IsLineComment source ts t front w back) {r : Text}
    (hr : textOf back = '\x00' :: r) :
    ∃ u ∈ ts, u.start = t.stop ∧ u.kind = .operator ∧ u.text = ['\x00'] := by
  obtain ⟨before, hspells⟩ := h.spells
  obtain ⟨us, rfl⟩ := h.tokens
  rcases back with _ | ⟨q, back⟩
  · cases hr
  obtain ⟨hq, -⟩ := hspells
  cases q with
  | gap c v =>
    obtain ⟨rfl, -⟩ := List.cons.inj hr
    exact absurd hq (not_fits_gap (by decide) (by decide))
  | lexeme c v l =>
    obtain ⟨rfl, -⟩ := List.cons.inj hr
    obtain ⟨-, hread, hlen⟩ := hq
    obtain rfl : l = ⟨.operator, 0, none⟩ := (Except.ok.inj hread).symm
    obtain rfl := List.eq_nil_of_length_eq_zero hlen
    exact ⟨_, List.mem_append_right _ (List.mem_cons_of_mem _ List.mem_cons_self), rfl, rfl, rfl⟩

end IsLineComment

/-! ### Scanned sources -/

/-- **A comment ends with its line, or in front of a null character.**  In a scanned source a
    comment behind a number sign has no line feed and no null character, and one of these
    follows it, or nothing.  So it ends with its line exactly if the rest of the line has no
    null character; and another token starts on that rest exactly if it has one. -/
theorem comment_ends {source : Text} {s : Scan} (h : scan source = .ok s) {t : Token}
    (ht : t ∈ s.tokens) (hkind : t.kind = .comment) (hmark : t.text.head? = some '#') :
    (∀ c ∈ source.extract t.start.offset t.stop.offset, c ≠ '\n' ∧ c ≠ '\x00') ∧
      (∀ c ∈ source[t.stop.offset]?, c = '\n' ∨ c = '\x00') ∧
      (t.stop.offset = lineEndAt source t.start.offset ↔
        '\x00' ∉ restOfLine source t.start.offset) ∧
      ((∃ u ∈ s.tokens, t.start.offset < u.start.offset ∧
        u.start.offset < lineEndAt source t.start.offset) ↔
        '\x00' ∈ restOfLine source t.start.offset) := by
  obtain ⟨front, w, back, hcomment⟩ := exists_isLineComment h ht hkind hmark
  refine ⟨?_, ?_, hcomment.stop_eq_iff, ?_, ?_⟩
  · rw [hcomment.extract_eq, List.forall_mem_cons]
    exact ⟨by decide, hcomment.inside⟩
  · rw [hcomment.getElem?_stop]
    exact hcomment.behind
  · rintro ⟨u, hu, hbehind, hinside⟩
    by_contra hnull
    rw [← hcomment.stop_eq_iff.mpr hnull] at hinside
    have htiling := scan_tiling h
    have hproper := (htiling.nonempty u hu).2
    obtain ⟨us, vs, hsplit⟩ := List.append_of_mem ht
    have hordered := htiling.ordered
    rw [hsplit, List.pairwise_append, List.pairwise_cons] at hordered
    rw [hsplit, List.mem_append, List.mem_cons] at hu
    rcases hu with hu | rfl | hu
    · have hbefore := hordered.2.2 u hu t List.mem_cons_self
      omega
    · exact Nat.lt_irrefl _ hbehind
    · have hafter := hordered.2.1.1 u hu
      omega
  · intro hnull
    obtain ⟨r, hr⟩ := hcomment.null_mem_restOfLine.mp hnull
    obtain ⟨u, hu, hstart, -, -⟩ := hcomment.exists_token_null hr
    have hproper := ((scan_tiling h).nonempty t ht).2
    refine ⟨u, hu, by rw [hstart]; exact hproper, ?_⟩
    rw [hstart, hcomment.lineEndAt_eq, hr, lineLength_cons (by decide)]
    omega

/-- A comment of control characters, brackets and quotes, with a carriage return at its end,
    in front of another line. -/
theorem comment_ends_controls :
    ∃ s t, scan "$x # \x01\x1b \x7d'\x0c\"<#\r\nb # c".toList = .ok s ∧ t ∈ s.tokens ∧
      t.start.offset = 3 ∧ t.stop.offset = 15 ∧
      t.stop.offset = lineEndAt "$x # \x01\x1b \x7d'\x0c\"<#\r\nb # c".toList t.start.offset := by
  have hrun : (scan "$x # \x01\x1b \x7d'\x0c\"<#\r\nb # c".toList).toOption.any (fun s =>
      s.tokens[1]?.any fun t => t.kind = .comment ∧ t.text.head? = some '#' ∧
        t.start.offset = 3 ∧ t.stop.offset = 15) = true := by
    decide +kernel
  have hplain : '\x00' ∉ restOfLine "$x # \x01\x1b \x7d'\x0c\"<#\r\nb # c".toList 3 := by
    decide +kernel
  generalize "$x # \x01\x1b \x7d'\x0c\"<#\r\nb # c".toList = source at hrun hplain ⊢
  obtain ⟨s, hscan, hrun⟩ := toOption_any.mp hrun
  rcases hget : s.tokens[1]? with _ | t
  · rw [hget] at hrun
    cases hrun
  · rw [hget, Option.any_some] at hrun
    obtain ⟨hkind, hmark, hstart, hstop⟩ := of_decide_eq_true hrun
    have hmem : t ∈ s.tokens := List.mem_of_getElem? hget
    rw [← hstart] at hplain
    exact ⟨s, t, hscan, hmem, hstart, hstop,
      (comment_ends hscan hmem hkind hmark).2.2.1.mpr hplain⟩

/-- Behind a null character in a comment a parameter keyword is read. -/
theorem comment_ends_null :
    ∃ s t u, scan "#\x00param".toList = .ok s ∧ s.tokens.head? = some t ∧ t.kind = .comment ∧
      t.text = "#".toList ∧ t.stop.offset = 1 ∧ lineEndAt "#\x00param".toList t.start.offset = 7 ∧
      s.tokens.getLast? = some u ∧ u.kind = .paramWord ∧ u.start.line = t.start.line := by
  have hrun : (scan "#\x00param".toList).toOption.any (fun s =>
      s.tokens.head?.any fun t => s.tokens.getLast?.any fun u => t.kind = .comment ∧
        t.text = "#".toList ∧ t.stop.offset = 1 ∧
        lineEndAt "#\x00param".toList t.start.offset = 7 ∧ u.kind = .paramWord ∧
        u.start.line = t.start.line) = true := by
    decide +kernel
  obtain ⟨s, hscan, hrun⟩ := toOption_any.mp hrun
  rcases hhead : s.tokens.head? with _ | t
  · rw [hhead] at hrun
    cases hrun
  rcases hlast : s.tokens.getLast? with _ | u
  · rw [hhead, hlast] at hrun
    cases hrun
  · rw [hhead, hlast, Option.any_some, Option.any_some] at hrun
    obtain ⟨hkind, htext, hstop, hend, hparam, hline⟩ := of_decide_eq_true hrun
    exact ⟨s, t, u, hscan, hhead, hkind, htext, hstop, hend, hlast, hparam, hline⟩

end ScriptModule
