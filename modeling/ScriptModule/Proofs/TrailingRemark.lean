/-
  ScriptModule/Proofs/TrailingRemark.lean
  =======================================
  **A remark at the end of a line.**  A comment put at the end of a line becomes a token of
  its own, or part of the comment that the line ends with; all other tokens stay as they
  are, some of them further back.  So a source is classified as before, except behind the
  base types of a class, which take in the comment.
-/
import ScriptModule.Proofs.LineEnds
import ScriptModule.Proofs.Padding

namespace ScriptModule

open Lexeme Script Grammar

/-! ### Comments to the end of a line -/

/-- A comment with a text behind its mark. -/
def noteToken (place : Position) (note : Text) : Token :=
  (Lexeme.mk .comment note.length none).token place '#' note

/-- Whether a text can stand in a comment to the end of its line. -/
def IsNote (note : Text) : Prop := ∀ c ∈ note, c ≠ '\n' ∧ c ≠ '\x00'

instance (note : Text) : Decidable (IsNote note) :=
  List.decidableBAll _ note

/-- A comment to the end of its line. -/
def notePiece (note : Text) : Piece := .lexeme '#' note ⟨.comment, note.length, none⟩

/-- Whether a text is empty or starts with a line feed. -/
def EndsHere (below : Text) : Prop := below = [] ∨ StartsLine below

theorem notePiece_fits {note below : Text} (hnote : IsNote note) (hbelow : EndsHere below)
    (sign : Bool) : (notePiece note).Fits sign below := by
  have hrun : lineCommentLength (note ++ below) = note.length := by
    refine runLength_append_eq.mpr ⟨fun c hc => by simpa using hnote c hc, ?_⟩
    rcases hbelow with rfl | ⟨r, rfl⟩
    · rfl
    · rfl
  refine ⟨rfl, ?_, rfl⟩
  change Except.ok (Lexeme.mk .comment (lineCommentLength (note ++ below)) none) = _
  rw [hrun]

theorem eq_notePiece {sign : Bool} {c : Char} {w rest : Text} {l : Lexeme}
    (h : (Piece.lexeme c w l).Fits sign rest)
    (hcomment : (Piece.lexeme c w l).isLineComment = true) :
    Piece.lexeme c w l = notePiece w ∧ IsNote w := by
  obtain rfl : c = '#' := by simpa [Piece.isLineComment] using hcomment
  obtain ⟨-, hread, hlen⟩ := h
  obtain rfl : l = ⟨.comment, lineCommentLength (w ++ rest), none⟩ := (Except.ok.inj hread).symm
  have hrun : lineCommentLength (w ++ rest) = w.length := hlen.symm
  refine ⟨by rw [hrun]; rfl, fun c hc => ?_⟩
  simpa using (runLength_append_eq.mp hrun).1 c hc

theorem noteToken_text (place : Position) (note : Text) :
    (noteToken place note).text = Text.dropEndWhile (· = '\r') ('#' :: note) := by
  simp [noteToken, Lexeme.token, Lexeme.text]

/-- The mark of a requirement has no blank in it. -/
theorem not_blank_of_mark {t : Text} (h : Text.fold t = "#requires".toList) {c : Char}
    (hc : c ∈ t) : c ≠ ' ' ∧ c ≠ '\r' := by
  have hsub : Text.foldChar c ⊆ "#requires".toList := by
    rw [← h]
    exact fun d hd => List.mem_flatMap.mpr ⟨c, hc, hd⟩
  constructor
  · rintro rfl
    exact absurd (hsub (show ' ' ∈ Text.foldChar ' ' by decide)) (by decide)
  · rintro rfl
    exact absurd (hsub (show '\r' ∈ Text.foldChar '\r' by decide)) (by decide)

/-- More behind a blank does not make a comment a requirement. -/
theorem isRemark_longer {place : Position} {w : Text} (h : (noteToken place w).isRemark = true)
    (other : Position) (u : Text) : (noteToken other (w ++ ' ' :: u)).isRemark = true := by
  by_contra hno
  have hrequirement : (noteToken other (w ++ ' ' :: u)).isRequirement = true := by
    simpa [Token.isRemark, noteToken] using hno
  simp only [Token.isRequirement, Bool.and_eq_true, beq_iff_eq] at hrequirement
  obtain ⟨⟨-, hfold⟩, hbehind⟩ := hrequirement
  rw [noteToken_text, ← List.cons_append, Text.dropEndWhile_append_cons (by decide)]
    at hfold hbehind
  generalize hW : '#' :: w = W at *
  generalize Text.dropEndWhile (· = '\r') u = v at *
  -- the mark ends in front of the blank
  have hlong : 9 ≤ W.length := by
    by_contra hshort
    refine (not_blank_of_mark hfold (c := ' ') ?_).1 rfl
    rw [List.take_append, List.mem_append]
    right
    obtain ⟨k, hk⟩ : ∃ k, 9 - W.length = k + 1 := ⟨8 - W.length, by omega⟩
    rw [hk, List.take_succ_cons]
    exact List.mem_cons_self
  rw [List.take_append_of_le_length hlong] at hfold
  rw [List.drop_append_of_le_length hlong] at hbehind
  have hmark : (W.take 9).length = 9 := List.length_take_of_le hlong
  have hsplit : Text.dropEndWhile (· = '\r') W =
      W.take 9 ++ Text.dropEndWhile (· = '\r') (W.drop 9) := by
    rcases List.eq_nil_or_concat' (W.take 9) with hnil | ⟨front, c, hfront⟩
    · rw [hnil] at hmark
      cases hmark
    · have hc : c ≠ '\r' := (not_blank_of_mark hfold (by rw [hfront]; simp)).2
      have hwhole : W = front ++ c :: W.drop 9 := by
        rw [List.append_cons, ← hfront, List.take_append_drop]
      calc Text.dropEndWhile (· = '\r') W
          = Text.dropEndWhile (· = '\r') (front ++ c :: W.drop 9) := congrArg _ hwhole
        _ = front ++ c :: Text.dropEndWhile (· = '\r') (W.drop 9) :=
          Text.dropEndWhile_append_cons (by simpa using hc) _ _
        _ = W.take 9 ++ Text.dropEndWhile (· = '\r') (W.drop 9) := by rw [hfront]; simp
  have hold : (noteToken place w).isRequirement = true := by
    rw [Token.isRequirement, noteToken_text, hW, hsplit, List.take_left' hmark, hfold,
      List.drop_left' hmark]
    rcases hrest : Text.dropEndWhile (· = '\r') (W.drop 9) with _ | ⟨d, r⟩
    · rfl
    · obtain ⟨tail, htail⟩ := Text.prefix_dropEndWhile (· = '\r') (W.drop 9)
      rw [← htail, hrest] at hbehind
      exact hbehind
  simp [Token.isRemark, hold] at h

/-! ### Pieces of a line -/

/-- Whether a row of pieces is what a comment put behind another one makes of it: the comment
    behind a blank, or the longer comment that the line ends with. -/
inductive Noted (note : Text) : List Piece → List Piece → Prop
  | behind : Noted note [] [.gap ' ' [], notePiece note]
  | longer (w : Text) : Noted note [notePiece w] [notePiece (w ++ ' ' :: '#' :: note)]

theorem spells_note {before : Option TokenKind} {note : Text} {qs : List Piece}
    (hnote : IsNote note) (hqs : EndsHere (textOf qs)) (h : Spells before [] qs) :
    Spells before [] (notePiece note :: qs) := by
  refine ⟨?_, h⟩
  rw [List.append_nil]
  exact notePiece_fits hnote hqs _

theorem IsNote.append {w note : Text} (hw : IsNote w) (hnote : IsNote note) :
    IsNote (w ++ ' ' :: '#' :: note) := by
  intro c hc
  rcases List.mem_append.mp hc with hc | hc
  · exact hw c hc
  · simp only [List.mem_cons] at hc
    rcases hc with rfl | rfl | hc
    · decide
    · decide
    · exact hnote c hc

/-- With a comment at the end of a line all pieces are the same but for those of the comment. -/
theorem exists_noted {ps qs : List Piece} {note : Text} (h : Spells none [] (ps ++ qs))
    (hqs : EndsHere (textOf qs)) (hnote : IsNote note) :
    ∃ front xs ys, ps = front ++ xs ∧ Noted note xs ys ∧ Spells none [] (front ++ (ys ++ qs)) ∧
      textOf (front ++ ys) = textOf ps ++ ' ' :: '#' :: note := by
  obtain ⟨hps, hbehind⟩ := spells_append.mp h
  by_cases hlast : ∃ p ∈ ps.getLast?, p.isLineComment = true
  · obtain ⟨p, hp, hcomment⟩ := hlast
    obtain ⟨front, rfl⟩ := List.getLast?_eq_some_iff.mp hp
    cases p with
    | gap c w => cases hcomment
    | lexeme c w l =>
      obtain ⟨heq, hw⟩ := eq_notePiece (spells_append.mp hps).2.1 hcomment
      rw [heq] at hps hbehind ⊢
      refine ⟨front, _, _, rfl, .longer w, spells_append.mpr ⟨?_, ?_⟩, ?_⟩
      · have hfront := (spells_append.mp hps.at_end).1.pad (by simp [notePiece, Piece.text])
          ('#' :: (note ++ textOf qs))
        simpa [notePiece, Piece.text] using hfront
      · refine spells_note (hw.append hnote) hqs ?_
        rw [afterAll, List.foldl_append] at hbehind
        exact hbehind
      · simp [notePiece, Piece.text]
  · refine ⟨ps, [], _, (List.append_nil ps).symm, .behind, spells_append.mpr ⟨?_, ?_⟩, ?_⟩
    · have hfront := hps.at_end.pad (fun _ p hp => Bool.eq_false_iff.mpr fun hcomment =>
        hlast ⟨p, hp, hcomment⟩) ('#' :: (note ++ textOf qs))
      simpa [notePiece, Piece.text] using hfront
    · exact ⟨rfl, spells_note hnote hqs hbehind⟩
    · simp [notePiece, Piece.text]

/-! ### Tokens of a line -/

/-- Pieces that are read alike in both scripts keep their tokens and the source between them. -/
theorem excerpt_tokens {sc whole : Script} {before : Option TokenKind} {rest : Text}
    {qs : List Piece} {a b a' b' : Text} {place dest : Position} (hqs : Spells before rest qs)
    (hsource : sc.source = a ++ (textOf qs ++ b)) (hplace : place = Position.start.advance a)
    (hwhole : whole.source = a' ++ (textOf qs ++ b')) (hdest : dest = Position.start.advance a')
    {f : Token → Token}
    (hf : ∀ t ∈ tokensOf place qs, f t = (excerpt place dest (textOf qs)).token t) :
    (tokensOf place qs).map f = tokensOf dest qs ∧ Agree sc whole f (tokensOf place qs) := by
  have hof := excerpt_of hsource (hplace ▸ advance_start_offset a) hwhole
    (hdest ▸ advance_start_offset a')
  constructor
  · have hall := tokens_excerpt hqs place dest
    rw [Recast.tokens, excerpt, List.append_nil] at hall
    rw [← hall]
    exact List.map_congr_left hf
  · intro t ht u hu
    rw [hf t ht, hf u hu]
    exact hof.slice (liesIn_of_mem hqs ht) (liesIn_of_mem hqs hu)

/-- Other remarks in front of the pieces behind the end of a line. -/
theorem exists_retouched {sc whole : Script} {front xs ys qs : List Piece}
    (hold : Spells none [] (front ++ (xs ++ qs)))
    (hsource : sc.source = textOf (front ++ (xs ++ qs)))
    (hwhole : whole.source = textOf (front ++ (ys ++ qs))) {here : Position}
    (hhere : here = Position.start.advance (textOf front))
    (hxs : ∀ t ∈ tokensOf here xs, t.isRemark = true)
    (hys : ∀ t ∈ tokensOf here ys, t.isRemark = true)
    (hqs : ∀ place, ∀ t ∈ (tokensOf place qs).head?, t.kind = .newline) :
    ∃ f, KeepsSaid f ∧ Retouched sc whole f (tokensOf (here.advance (textOf xs)) qs)
      (tokensOf .start (front ++ (xs ++ qs))) (tokensOf .start (front ++ (ys ++ qs))) := by
  let place := here.advance (textOf xs)
  let dest := here.advance (textOf ys)
  let recast (t : Token) : Recast := if t.start.offset < (textOf front).length
    then excerpt .start .start (textOf front) else excerpt place dest (textOf qs)
  obtain ⟨hfront, hmore⟩ := spells_append.mp hold
  have hback := (spells_append.mp hmore).2
  have ha := @excerpt_tokens sc whole _ _ front [] (textOf (xs ++ qs)) [] (textOf (ys ++ qs))
    .start .start hfront (by rw [hsource, textOf_append]; rfl) rfl
    (by rw [hwhole, textOf_append]; rfl) rfl (fun t => (recast t).token t) (by
      intro t ht
      have hlt : t.start.offset < (textOf front).length := by
        simpa [Position.start] using token_start_lt ht
      simp only [recast, if_pos hlt])
  have hb := @excerpt_tokens sc whole _ _ qs (textOf (front ++ xs)) [] (textOf (front ++ ys)) []
    place dest hback (by rw [hsource]; simp) (by rw [textOf_append, advance_append, ← hhere])
    (by rw [hwhole]; simp) (by rw [textOf_append, advance_append, ← hhere])
    (fun t => (recast t).token t) (by
      intro t ht
      have hle := (liesIn_of_mem hback ht).behind
      have hplace : place.offset = (textOf front).length + (textOf xs).length := by
        rw [advance_offset, hhere, advance_start_offset]
      have hlt : ¬ t.start.offset < (textOf front).length := by omega
      simp only [recast, if_neg hlt])
  refine ⟨fun t => (recast t).token t, fun t => rfl, ?_⟩
  have hall : Retouched sc whole _ (tokensOf place qs) _ _ :=
    .intro _ _ _ _ hxs hys (hqs place) (.inl rfl) ha.2 hb.2
  rw [ha.1, hb.1] at hall
  simp only [tokensOf_append, ← hhere]
  exact hall

/-! ### Classified sources -/

/-- Whether a line of a source ends behind `front`, with a statement or inside one, and no
    requirement comment does. -/
structure LineEnd (filename : Option Text) (front below : Text) (s : Scan) : Prop where
  newline : below = [] ∨ ∃ t ∈ s.tokens, t.kind = .newline ∧ t.start.offset = front.length
  statement : Script.lineEnds ⟨filename, front ++ below, s.tokens, s.stop⟩
    (s.tokens.filter fun t => front.length ≤ t.start.offset) s.tokens = true
  noRequirement : ∀ t ∈ s.tokens, t.isRequirement = true → t.stop.offset ≠ front.length

instance (filename : Option Text) (front below : Text) (s : Scan) :
    Decidable (LineEnd filename front below s) :=
  decidable_of_iff ((below = [] ∨ ∃ t ∈ s.tokens, t.kind = .newline ∧
      t.start.offset = front.length) ∧
    Script.lineEnds ⟨filename, front ++ below, s.tokens, s.stop⟩
      (s.tokens.filter fun t => front.length ≤ t.start.offset) s.tokens = true ∧
    ∀ t ∈ s.tokens, t.isRequirement = true → t.stop.offset ≠ front.length)
    ⟨fun h => ⟨h.1, h.2.1, h.2.2⟩, fun h => ⟨h.newline, h.statement, h.noRequirement⟩⟩

/-- A source is cut into pieces where a line ends. -/
theorem exists_line {ps : List Piece} {front below : Text} (hps : Spells none [] ps)
    (htext : textOf ps = front ++ below)
    (h : below = [] ∨ ∃ t ∈ tokensOf .start ps, t.kind = .newline ∧
      t.start.offset = front.length) :
    ∃ as bs, ps = as ++ bs ∧ textOf as = front ∧ textOf bs = below ∧
      (bs = [] ∨ ∃ qs, bs = newlinePiece :: qs) := by
  rcases h with rfl | ⟨t, ht, hkind, hstart⟩
  · exact ⟨ps, [], (List.append_nil ps).symm, htext.trans (List.append_nil _), rfl, .inl rfl⟩
  · obtain ⟨i, hi⟩ := List.mem_iff_getElem?.mp ht
    obtain ⟨as, c, w, l, bs, rfl, -, rfl⟩ := exists_lexeme hi
    have hpiece := (spells_append.mp hps).2.1.eq_newline hkind
    have hlength : (textOf as).length = front.length := by
      rw [← hstart]
      exact (advance_start_offset _).symm
    rw [textOf_append] at htext
    obtain ⟨hfront, hbelow⟩ := List.append_inj htext hlength
    rw [hpiece] at hbelow ⊢
    exact ⟨as, _, rfl, hfront, hbelow, .inr ⟨bs, rfl⟩⟩

/-- The tokens from a place on. -/
theorem filter_tokensOf {before : Option TokenKind} {as bs : List Piece} {rest : Text}
    (h : Spells before rest bs) : (tokensOf .start (as ++ bs)).filter
      (fun t => (textOf as).length ≤ t.start.offset) =
        tokensOf (Position.start.advance (textOf as)) bs := by
  rw [tokensOf_append, List.filter_append]
  have hfront : (tokensOf .start as).filter (fun t => (textOf as).length ≤ t.start.offset) =
      [] := by
    refine List.filter_eq_nil_iff.mpr fun t ht => ?_
    simpa [Position.start] using token_start_lt ht
  have hback : (tokensOf (Position.start.advance (textOf as)) bs).filter
      (fun t => (textOf as).length ≤ t.start.offset) =
        tokensOf (Position.start.advance (textOf as)) bs := by
    refine List.filter_eq_self.mpr fun t ht => ?_
    have hle := (liesIn_of_mem h ht).behind
    rw [advance_start_offset] at hle
    simpa using hle
  rw [hfront, hback, List.nil_append]

/-- The comment at the end of a line is a remark, by itself or behind another one. -/
theorem Noted.isRemark {note : Text} {xs ys : List Piece} (h : Noted note xs ys)
    (hremark : (noteToken .start note).isRemark = true) {here : Position}
    (hxs : ∀ t ∈ tokensOf here xs, t.stop = here.advance (textOf xs) → t.isRequirement = false) :
    (∀ t ∈ tokensOf here xs, t.isRemark = true) ∧ ∀ t ∈ tokensOf here ys, t.isRemark = true := by
  cases h with
  | behind =>
    refine ⟨by simp [tokensOf], fun t ht => ?_⟩
    obtain rfl := List.mem_singleton.mp ht
    exact hremark
  | longer w =>
    have hstop : (noteToken here w).stop = here.advance (textOf [notePiece w]) := by
      rw [textOf_cons, textOf_nil, List.append_nil]
      exact token_stop rfl here '#'
    have hold : (noteToken here w).isRemark = true := by
      have hno := hxs (noteToken here w) List.mem_cons_self hstop
      rw [Token.isRemark, hno]
      rfl
    refine ⟨fun t ht => ?_, fun t ht => ?_⟩
    · obtain rfl := List.mem_singleton.mp ht
      exact hold
    · obtain rfl := List.mem_singleton.mp ht
      exact isRemark_longer hold here ('#' :: note)

/-- **A remark at the end of a line changes no statement.**  A blank and a comment to the end
    of the line, put behind a line that ends a directive, an assignment, a member of an
    enumeration or a definition, or the head of a definition without base types, leave what
    every statement says as it is: all but its place and its source text. -/
theorem classify_trailing_remark {filename : Option Text} {front below note : Text}
    {sts : List Statement} {s : Scan} (h : classify filename (front ++ below) = .ok sts)
    (hs : scan (front ++ below) = .ok s) (hend : LineEnd filename front below s)
    (hnote : IsNote note) (hremark : (noteToken .start note).isRemark = true) :
    ∃ sts', classify filename (front ++ ' ' :: '#' :: note ++ below) = .ok sts' ∧
      sts'.map Statement.said = sts.map Statement.said := by
  obtain ⟨s', hs', hstatements⟩ := classify_iff.mp h
  obtain rfl : s' = s := Except.ok.inj (hs'.symm.trans hs)
  obtain ⟨ps, htext, hps, htokens⟩ := exists_pieces hs
  obtain ⟨hnewline, hlines, hopen⟩ := hend
  rw [htokens] at hnewline hlines hopen hstatements
  obtain ⟨as, bs, rfl, rfl, rfl, hbs⟩ := exists_line hps htext hnewline
  have hends : EndsHere (textOf bs) := by
    rcases hbs with rfl | ⟨qs, rfl⟩
    · exact .inl rfl
    · exact .inr ⟨_, rfl⟩
  have hhead : ∀ place, ∀ t ∈ (tokensOf place bs).head?, t.kind = .newline := by
    rcases hbs with rfl | ⟨qs, rfl⟩
    · simp [tokensOf]
    · rintro place t ⟨⟩
      rfl
  rw [filter_tokensOf (spells_append.mp hps).2] at hlines
  obtain ⟨init, xs, ys, rfl, hnoted, hnew, hnewText⟩ := exists_noted hps hends hnote
  let sc : Script := ⟨filename, textOf (init ++ xs) ++ textOf bs,
    tokensOf .start (init ++ xs ++ bs), s'.stop⟩
  let whole : Script := ⟨filename, textOf (init ++ (ys ++ bs)),
    tokensOf .start (init ++ (ys ++ bs)), Position.start.advance (textOf (init ++ (ys ++ bs)))⟩
  let here := Position.start.advance (textOf init)
  have hplace : here.advance (textOf xs) = Position.start.advance (textOf (init ++ xs)) := by
    rw [textOf_append, advance_append]
  have hremarks := hnoted.isRemark hremark fun t ht hstop => by
    have hmem : t ∈ tokensOf .start (init ++ xs ++ bs) := by
      rw [tokensOf_append, tokensOf_append]
      exact List.mem_append_left _ (List.mem_append_right _ ht)
    refine Bool.eq_false_iff.mpr fun hrequirement => hopen t hmem hrequirement ?_
    rw [hstop, hplace, advance_start_offset]
  rw [List.append_assoc] at hps
  obtain ⟨f, hf, hretouched⟩ := @exists_retouched sc whole init xs ys bs hps (by simp [sc]) rfl here
    rfl hremarks.1 hremarks.2 hhead
  rw [hplace, ← List.append_assoc] at hretouched
  obtain ⟨sts', hsts', hsame⟩ := @Grammar.Statements.retouched sc whole f _ _ _ hf rfl sts
    hstatements hretouched (.inr hlines)
  refine ⟨sts', classify_iff.mpr ⟨⟨whole.tokens, whole.stop⟩, ?_, ?_⟩, hsame⟩
  · rw [← hnewText, ← textOf_append, List.append_assoc]
    exact scanFrom_textOf hnew .start
  · rw [← hnewText, ← textOf_append, List.append_assoc]
    exact hsts'

/-- Behind the head of an enumeration, which ends with a remark already. -/
theorem classify_trailing_remark_head :
    ∃ front below note : Text, front = "$x = 1\n[A()]\nenum E : byte # size".toList ∧
      below = "\n\x7b\n  F = 1\n\x7d\nclass C : B\n\x7b\n\x7d".toList ∧ note = " ones".toList ∧
      ∃ sts s, classify none (front ++ below) = .ok sts ∧ scan (front ++ below) = .ok s ∧
        LineEnd none front below s ∧ IsNote note ∧ (noteToken .start note).isRemark = true ∧
        ∃ sts', classify none (front ++ ' ' :: '#' :: note ++ below) = .ok sts' ∧
          sts'.map Statement.said = sts.map Statement.said := by
  let front : Text := "$x = 1\n[A()]\nenum E : byte # size".toList
  let below : Text := "\n\x7b\n  F = 1\n\x7d\nclass C : B\n\x7b\n\x7d".toList
  have hall : ((classify none (front ++ below)).toOption.any fun _ =>
      (scan (front ++ below)).toOption.any fun s => LineEnd none front below s) = true := by
    decide +kernel
  obtain ⟨sts, hsts, hall⟩ := toOption_any.mp hall
  obtain ⟨s, hs, hall⟩ := toOption_any.mp hall
  have hend : LineEnd none front below s := of_decide_eq_true hall
  have hnote : IsNote " ones".toList := by decide
  have hremark : (noteToken .start " ones".toList).isRemark = true := by decide +kernel
  exact ⟨_, _, _, rfl, rfl, rfl, sts, s, hsts, hs, hend, hnote, hremark,
    classify_trailing_remark hsts hs hend hnote hremark⟩

/-- Behind the base types of a class the comment becomes part of the last one. -/
theorem classify_trailing_remark_bases :
    ∃ front below note : Text, front = "class A : B".toList ∧ below = "\n\x7b\n\x7d".toList ∧
      note = " c".toList ∧ ∃ sts sts', classify none (front ++ below) = .ok sts ∧
        classify none (front ++ ' ' :: '#' :: note ++ below) = .ok sts' ∧
        sts.map Statement.content = [.classType ⟨"A".toList, ["B".toList]⟩] ∧
        sts'.map Statement.content = [.classType ⟨"A".toList, ["B# c".toList]⟩] := by
  have hplain : ((classify none "class A : B\n\x7b\n\x7d".toList).toOption.any fun sts =>
      sts.map Statement.content = [.classType ⟨"A".toList, ["B".toList]⟩]) = true := by
    decide +kernel
  have hnoted : ((classify none "class A : B # c\n\x7b\n\x7d".toList).toOption.any fun sts =>
      sts.map Statement.content = [.classType ⟨"A".toList, ["B# c".toList]⟩]) = true := by
    decide +kernel
  obtain ⟨sts, hsts, hplain⟩ := toOption_any.mp hplain
  obtain ⟨sts', hsts', hnoted⟩ := toOption_any.mp hnoted
  exact ⟨_, _, _, rfl, rfl, rfl, sts, sts', hsts, hsts', of_decide_eq_true hplain,
    of_decide_eq_true hnoted⟩

end ScriptModule
