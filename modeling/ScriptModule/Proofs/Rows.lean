/-
  ScriptModule/Proofs/Rows.lean
  =============================
  **Rows of a source.**  A line feed that is a token of its own cuts a source in two: what
  stands in front of it and what stands behind it are cut into the same pieces wherever they
  stand.  So lines may be put at such a place, and taken away.
-/
import ScriptModule.Proofs.Composition

namespace ScriptModule

open Lexeme

/-! ### Rows of pieces -/

/-- Pieces that end where a line does, and are cut the same whatever follows. -/
structure Rows (ps : List Piece) : Prop where
  spells : ∀ rest, Spells none rest ps
  ends : ∀ p ∈ ps.getLast?, p = newlinePiece

/-- Behind rows a dash may be a sign, as at the start of a source. -/
theorem Rows.sign {ps : List Piece} (h : Rows ps) : signMayFollow (afterAll none ps) = true := by
  rcases List.eq_nil_or_concat' ps with rfl | ⟨front, p, rfl⟩
  · rfl
  · obtain rfl := h.ends p List.getLast?_concat
    rw [afterAll, List.foldl_append]
    rfl

theorem Rows.before {ps qs : List Piece} {rest : Text} (h : Rows ps)
    (hqs : Spells none rest qs) : Spells none rest (ps ++ qs) :=
  spells_append.mpr ⟨h.spells _, hqs.congr_before h.sign.symm⟩

/-- Behind rows, pieces are cut as at the start of a source. -/
theorem Rows.behind {ps qs : List Piece} {rest : Text} (h : Rows ps)
    (hall : Spells none rest (ps ++ qs)) : Spells none rest qs :=
  (spells_append.mp hall).2.congr_before h.sign

theorem Rows.of_append {ps qs : List Piece} (h : Rows ps) (hall : Rows (ps ++ qs)) : Rows qs := by
  refine ⟨fun rest => h.behind (hall.spells rest), fun p hp => hall.ends p ?_⟩
  rw [List.getLast?_append_of_ne_nil _ (by rintro rfl; cases hp)]
  exact hp

theorem Rows.concat_newline {ps : List Piece} {old : Text} (h : Spells none old ps)
    (hopen : ∀ p ∈ ps.getLast?, ¬ p.Open) : Rows (ps ++ [newlinePiece]) := by
  refine ⟨fun rest => h.concat_newline hopen rest, fun p hp => ?_⟩
  rw [List.getLast?_concat] at hp
  exact (Option.some.inj hp).symm

/-- Pieces in front of a line feed that is a token make a row with it. -/
theorem Rows.of_newline {ps qs : List Piece} {rest : Text}
    (h : Spells none rest (ps ++ newlinePiece :: qs)) : Rows (ps ++ [newlinePiece]) := by
  have hps := (spells_append.mp h).1
  refine Rows.concat_newline hps fun p hp hopen => ?_
  obtain ⟨front, rfl⟩ := List.getLast?_eq_some_iff.mp hp
  have hlast := (spells_append.mp hps).2.1
  exact hlast.not_startsLine hopen ⟨_, rfl⟩

theorem Rows.textOf {ps : List Piece} (h : Rows ps) :
    textOf ps = [] ∨ (textOf ps).getLast? = some '\n' := by
  rcases List.eq_nil_or_concat' ps with rfl | ⟨front, p, rfl⟩
  · exact .inl rfl
  · obtain rfl := h.ends p List.getLast?_concat
    rw [textOf_append]
    exact .inr List.getLast?_concat

theorem Rows.tokensOf {ps : List Piece} (h : Rows ps) (place : Position) :
    ∀ t ∈ (tokensOf place ps).getLast?, t.kind = .newline := by
  rcases List.eq_nil_or_concat' ps with rfl | ⟨front, p, rfl⟩
  · simp [ScriptModule.tokensOf]
  · obtain rfl := h.ends p List.getLast?_concat
    rw [tokensOf_append, newlinePiece, ScriptModule.tokensOf, ScriptModule.tokensOf,
      List.getLast?_concat]
    rintro t ⟨⟩
    rfl

/-! ### Line feeds -/

namespace Lexeme

/-- Only a line feed is read as a line end. -/
theorem newline_of_read {sign : Bool} {c : Char} {r : Text} {l : Lexeme}
    (h : read sign c r = .ok l) (hkind : l.kind = .newline) : c = '\n' := by
  cases reads_of_read h with
  | punctuation _ hp =>
    unfold punctuation? at hp
    split at hp <;> cases hp <;> first | rfl | cases hkind
  | dollar h => rcases kind_dollar h with h | h | h <;> cases h.symm.trans hkind
  | atSign h => rcases kind_atSign h with h | h | h | h | h <;> cases h.symm.trans hkind
  | dash => rcases kind_dash sign r with ⟨h, -⟩ | h | h <;> cases h.symm.trans hkind
  | plain => exact absurd hkind (kind_plain_ne rfl (by decide) (by decide) c r)
  | lineComment | blockComment | singleQuoted | doubleQuoted | doubleColon | colon => cases hkind

end Lexeme

/-- A piece that is a line end is a line feed. -/
theorem Piece.Fits.eq_newline {sign : Bool} {c : Char} {w rest : Text} {l : Lexeme}
    (h : (Piece.lexeme c w l).Fits sign rest) (hkind : l.kind = .newline) :
    Piece.lexeme c w l = newlinePiece := by
  obtain rfl := newline_of_read h.2.1 hkind
  obtain ⟨rfl, rfl⟩ := h.line_feed
  rfl

theorem exists_row_of_newline {place : Position} {ps : List Piece} (h : Spells none [] ps)
    {t : Token} (ht : t ∈ tokensOf place ps) (hkind : t.kind = .newline) :
    ∃ qs rs, ps = (qs ++ [newlinePiece]) ++ rs ∧ Rows (qs ++ [newlinePiece]) ∧
      Spells none [] rs ∧
      t.stop.offset = place.offset + (textOf (qs ++ [newlinePiece])).length := by
  obtain ⟨i, hi⟩ := List.mem_iff_getElem?.mp ht
  obtain ⟨qs, c, w, l, rs, rfl, -, rfl⟩ := exists_lexeme hi
  have hfits := (spells_append.mp h).2.1
  have hpiece := hfits.eq_newline hkind
  have hstop : (l.token (place.advance (textOf qs)) c w).stop.offset =
      place.offset + (textOf (qs ++ [Piece.lexeme c w l])).length := by
    rw [token_stop hfits.2.2, advance_offset, advance_offset, textOf_append, List.length_append,
      textOf_cons, textOf_nil, List.append_nil, Nat.add_assoc]
    rfl
  rw [hpiece] at h hstop ⊢
  have hrow := Rows.of_newline h
  refine ⟨qs, rs, by simp, hrow, hrow.behind ?_, hstop⟩
  rwa [List.append_assoc]

/-- A line end that is a token cuts the pieces behind rows in two, and those in front of it
    are rows. -/
theorem exists_rows_of_newline {ps qs : List Piece} (h : Rows ps)
    (hall : Spells none [] (ps ++ qs)) {t : Token} (ht : t ∈ tokensOf .start (ps ++ qs))
    (hkind : t.kind = .newline) {n : Nat} (hstop : t.stop.offset = (textOf ps).length + n) :
    ∃ as bs, qs = as ++ bs ∧ Rows as ∧ Spells none [] bs ∧ (textOf as).length = n := by
  obtain ⟨xs, bs, hsplit, hrow, hbs, hlength⟩ := exists_row_of_newline hall ht hkind
  generalize xs ++ [newlinePiece] = front at hsplit hrow hlength
  have hfront : (textOf front).length = (textOf ps).length + n := by
    rw [← hstop, hlength]
    exact (Nat.zero_add _).symm
  rcases List.append_eq_append_iff.mp hsplit with ⟨as, rfl, hqs⟩ | ⟨as, rfl, hbs'⟩
  · refine ⟨as, bs, hqs, h.of_append hrow, hbs, ?_⟩
    rw [textOf_append, List.length_append] at hfront
    omega
  · -- the line end is the last one of the rows, so nothing lies between
    rw [textOf_append, List.length_append] at hfront
    have hnil : textOf as = [] := List.eq_nil_of_length_eq_zero (by omega)
    obtain rfl : as = [] := by
      cases as with
      | nil => rfl
      | cons p as => exact absurd (List.append_eq_nil_iff.mp hnil).1 p.text_ne_nil
    refine ⟨[], bs, hbs'.symm, ⟨fun _ => trivial, by simp⟩, hbs, ?_⟩
    rw [textOf_nil, List.length_nil] at hfront ⊢
    omega

/-- Behind a line feed a text starts in the first column, as a source does. -/
theorem advance_rows {t : Text} (h : t = [] ∨ t.getLast? = some '\n') :
    Position.start.advance t = Position.start.moved t.length (t.count '\n') := by
  rcases h with rfl | h
  · rfl
  · obtain ⟨a, rfl⟩ := List.getLast?_eq_some_iff.mp h
    rw [advance_newline, List.length_append, List.count_append]
    simp [Nat.add_comm]

/-- Behind rows the tokens are those of the start of a source, further down. -/
theorem Rows.tokensOf_append {ps : List Piece} (h : Rows ps) (qs : List Piece) :
    ScriptModule.tokensOf .start (ps ++ qs) = ScriptModule.tokensOf .start ps ++
      (ScriptModule.tokensOf .start qs).map
        (Token.moved (ScriptModule.textOf ps).length ((ScriptModule.textOf ps).count '\n')) := by
  rw [ScriptModule.tokensOf_append, advance_rows h.textOf, tokensOf_moved]

theorem Token.moved_moved (t : Token) (o l o' l' : Nat) :
    (t.moved o l).moved o' l' = t.moved (o + o') (l + l') := by
  simp [Token.moved, Position.moved, Nat.add_assoc]

/-! ### Lines of one comment -/

/-- A line that holds a requirement comment and nothing else. -/
structure IsRequirementLine (line : Text) : Prop where
  noFeed : '\n' ∉ line
  tokens : ∃ s r, scan line = .ok s ∧ s.tokens = [r] ∧ r.isRequirement = true

/-- A requirement comment ends its line: nothing is read behind it, and no line feed behind
    the line becomes part of it. -/
theorem not_open_of_requirement {ps : List Piece} {place : Position} {r : Token}
    (h : Spells none [] ps) (htokens : tokensOf place ps = [r]) (hr : r.isRequirement = true) :
    ∀ p ∈ ps.getLast?, ¬ p.Open := by
  have hget : (tokensOf place ps)[0]? = some r := by rw [htokens]; rfl
  obtain ⟨front, c, w, l, back, rfl, hfront, rfl⟩ := exists_lexeme hget
  obtain ⟨⟨-, hread, hlen⟩, hback⟩ := (spells_append.mp h).2
  have hkind : l.kind = .comment := Grammar.comment_of_isRequirement hr
  have hnone : tokensOf ((place.advance (textOf front)).advance (c :: w)) back = [] := by
    have hall := htokens
    rw [tokensOf_append, hfront.symm.trans List.take_zero, List.nil_append] at hall
    exact (List.cons.inj hall).2
  rw [List.append_nil] at hread
  -- the comment runs to the end of the line, so no gap follows it
  obtain rfl : back = [] := by
    rcases back with _ | ⟨q, back⟩
    · rfl
    cases q with
    | lexeme d v k => cases hnone
    | gap d v =>
      rcases comment_of_read hread hkind with ⟨rfl, hextra⟩ | rfl
      · have hstops := (runLength_append_eq.mp (hextra.symm.trans hlen.symm)).2
        rcases gap_cases hback.1 with ⟨-, hgap, -⟩ | ⟨rfl, -⟩
        · have hd : d ≠ '\n' ∧ d ≠ '\x00' := by
            constructor <;> rintro rfl <;> exact absurd hgap (by decide)
          simp [Stops, startsWith, Piece.text, hd] at hstops
        · simp [Stops, startsWith, Piece.text] at hstops
      · exact absurd (by simp [token, Lexeme.text]) (head_of_isRequirement hr)
  intro p hp
  rw [List.getLast?_concat] at hp
  cases hp
  rintro (hopen | hopen) <;> obtain ⟨rfl, -⟩ := List.cons.inj hopen
  · rcases comment_of_read hread hkind with ⟨hc, -⟩ | hc <;> cases hc
  · rcases comment_of_read hread hkind with ⟨hc, -⟩ | hc <;> cases hc

theorem IsRequirementLine.pieces {line : Text} (h : IsRequirementLine line) :
    ∃ ps r, textOf ps = line ∧ Spells none [] ps ∧ Rows (ps ++ [newlinePiece]) ∧
      tokensOf Position.start ps = [r] ∧ r.isRequirement = true := by
  obtain ⟨s, r, hscan, htokens, hr⟩ := h.tokens
  obtain ⟨ps, rfl, hps, hpieces⟩ := exists_pieces hscan
  rw [htokens] at hpieces
  exact ⟨ps, r, rfl, hps, Rows.concat_newline hps (not_open_of_requirement hps hpieces.symm hr),
    hpieces.symm, hr⟩

end ScriptModule
