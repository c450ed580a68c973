/-
  ScriptModule/Proofs/Excerpt.lean
  ================================
  **Declarations on their own.**  A declaration is read from its own tokens: what stands
  behind them may be cut off, and what stands in front.  So the source from its first to
  its last token, taken as a source by itself, is read as the same declaration.
-/
import ScriptModule.Proofs.EnumNormalForm

namespace ScriptModule

open Lexeme

/-! ### What stands behind is cut off -/

theorem groupEnd?_cut {depth : Nat} {ts keep xs : List Token} {t : Token}
    (h : groupEnd? depth ts = some (t, keep ++ xs)) :
    ∃ us, ts = us ++ xs ∧ groupEnd? depth us = some (t, keep) := by
  obtain ⟨us, rfl, hdepth⟩ := groupEnd?_balanced h
  have hcloser := groupEnd?_isCloser h
  refine ⟨us ++ t :: keep, by simp, ?_⟩
  rw [groupEnd?_of_some _ hdepth]
  exact groupEnd?_cons_closer hcloser keep

theorem dropWhile_cut {q : Token → Bool} {ts keep xs : List Token} {t : Token}
    (h : ts.dropWhile q = t :: (keep ++ xs)) :
    ∃ us, ts = us ++ xs ∧ us.dropWhile q = t :: keep := by
  induction ts with
  | nil => cases h
  | cons u ts ih =>
    by_cases hu : q u = true
    · rw [List.dropWhile_cons_of_pos hu] at h
      obtain ⟨us, rfl, hus⟩ := ih h
      exact ⟨u :: us, rfl, by rw [List.dropWhile_cons_of_pos hu, hus]⟩
    · rw [List.dropWhile_cons_of_neg hu] at h
      obtain ⟨rfl, rfl⟩ := List.cons.inj h
      exact ⟨u :: keep, rfl, List.dropWhile_cons_of_neg hu⟩

theorem nextIs_append {k : TokenKind} {us : List Token} (h : us ≠ []) (xs : List Token) :
    Script.nextIs k (us ++ xs) = Script.nextIs k us := by
  obtain ⟨u, us, rfl⟩ := List.exists_cons_of_ne_nil h
  rfl

namespace Grammar

open Script

variable {sc : Script} {ts keep xs : List Token}

theorem Name.cut {n : Text} (h : Name ts n (keep ++ xs)) :
    ∃ us, ts = us ++ xs ∧ Name us n keep := by
  generalize hrest : keep ++ xs = rest at h
  obtain @⟨t, _, hname⟩ := h
  subst hrest
  exact ⟨t :: keep, rfl, .intro hname⟩

theorem Body.cut {close : Token} (h : Body ts close (keep ++ xs)) :
    ∃ us, ts = us ++ xs ∧ Body us close keep := by
  obtain ⟨hblank, hbrace, hend⟩ := h
  obtain ⟨inner, rfl, hend'⟩ := groupEnd?_cut hend
  obtain ⟨us, rfl, hblank'⟩ := dropWhile_cut hblank
  exact ⟨us, rfl, .intro hblank' hbrace hend'⟩

theorem afterAttribute_cut (h : afterAttribute ts = keep ++ xs) (hkeep : keep ≠ []) :
    ∃ us, ts = us ++ xs ∧ afterAttribute us = keep := by
  obtain ⟨t, keep, rfl⟩ := List.exists_cons_of_ne_nil hkeep
  unfold afterAttribute at h
  split at h
  · next hvariable =>
    refine ⟨t :: keep, h, if_pos ?_⟩
    rw [h, nextIs_append hkeep] at hvariable
    exact hvariable
  · next hvariable =>
    obtain ⟨us, rfl, hus⟩ := dropWhile_cut h
    have hne : us ≠ [] := by
      rintro rfl
      cases hus
    refine ⟨us, rfl, (if_neg ?_).trans hus⟩
    rwa [nextIs_append hne] at hvariable

theorem Attributes.cut {as : List Text} (h : Attributes sc ts as (keep ++ xs))
    (hkeep : keep ≠ []) : ∃ us, ts = us ++ xs ∧ Attributes sc us as keep := by
  generalize hrest : keep ++ xs = rest at h
  induction h with
  | nil hnext =>
    subst hrest
    rw [nextIs_append hkeep] at hnext
    exact ⟨keep, rfl, .nil hnext⟩
  | @cons t close ts mid rest as hkind hend hmore ih =>
    obtain ⟨later, hlater, hread⟩ := ih hrest
    have hne : later ≠ [] := by
      rintro rfl
      exact hkeep (List.suffix_nil.mp hread.suffix)
    obtain ⟨middle, rfl, hmiddle⟩ := afterAttribute_cut hlater hne
    obtain ⟨inner, rfl, hend'⟩ := groupEnd?_cut hend
    rw [← hmiddle] at hread
    exact ⟨t :: inner, rfl, .cons hkind hend' hread⟩

theorem baseTypesFrom_cut {depth : Int} {base : Text} {bs : List Text}
    (h : baseTypesFrom depth base ts = (bs, keep ++ xs)) (hkeep : keep ≠ []) :
    ∃ us, ts = us ++ xs ∧ baseTypesFrom depth base us = (bs, keep) := by
  induction ts generalizing depth base bs with
  | nil =>
    have hnil : keep ++ xs = [] := (congrArg Prod.snd h).symm
    exact absurd (List.append_eq_nil_iff.mp hnil).1 hkeep
  | cons t ts ih =>
    rw [baseTypesFrom] at h
    split at h
    · next hstop =>
      obtain ⟨u, keep, rfl⟩ := List.exists_cons_of_ne_nil hkeep
      obtain ⟨rfl, hts⟩ := Prod.mk.inj h
      obtain ⟨rfl, rfl⟩ := List.cons.inj hts
      refine ⟨t :: keep, rfl, ?_⟩
      rw [baseTypesFrom]
      exact if_pos hstop
    · next hstop =>
      split at h
      · next hcomma =>
        obtain ⟨rfl, hrest⟩ := Prod.mk.inj h
        have hmore : baseTypesFrom 0 [] ts = ((baseTypesFrom 0 [] ts).1, keep ++ xs) :=
          Prod.ext rfl hrest
        obtain ⟨us, rfl, hus⟩ := ih hmore
        refine ⟨t :: us, rfl, ?_⟩
        rw [baseTypesFrom]
        apply (if_neg hstop).trans
        apply (if_pos hcomma).trans
        rw [hus]
      · next hcomma =>
        obtain ⟨us, rfl, hus⟩ := ih h
        refine ⟨t :: us, rfl, ?_⟩
        rw [baseTypesFrom]
        exact (if_neg hstop).trans ((if_neg hcomma).trans hus)

theorem BaseTypes.cut {bs : List Text} (h : BaseTypes ts bs (keep ++ xs)) (hkeep : keep ≠ []) :
    ∃ us, ts = us ++ xs ∧ BaseTypes us bs keep := by
  generalize hrest : keep ++ xs = rest at h
  rcases h with hnext | @⟨t, ts, _, _, hcolon, heq, hproper⟩
  · subst hrest
    rw [nextIs_append hkeep] at hnext
    exact ⟨keep, rfl, .none hnext⟩
  · subst hrest
    obtain ⟨us, rfl, hus⟩ := baseTypesFrom_cut heq hkeep
    exact ⟨t :: us, rfl, .some hcolon hus hproper⟩

theorem FunctionName.cut {n : Text} (h : FunctionName ts n (keep ++ xs)) (hkeep : keep ≠ []) :
    ∃ us, ts = us ++ xs ∧ FunctionName us n keep := by
  rcases h with ⟨hname, hnext⟩ | ⟨hscope, hcolon, hname⟩
  · obtain ⟨us, rfl, hus⟩ := hname.cut
    rw [nextIs_append hkeep] at hnext
    exact ⟨us, rfl, .plain hus hnext⟩
  · obtain ⟨mid, rfl, hmid⟩ := hname.cut
    obtain ⟨us, rfl, hus⟩ := @Name.cut _ (_ :: mid) _ _ hscope
    exact ⟨us, rfl, .scoped hus hcolon hmid⟩

theorem Parameters.cut (h : Parameters ts (keep ++ xs)) (hkeep : keep ≠ []) :
    ∃ us, ts = us ++ xs ∧ Parameters us keep := by
  generalize hrest : keep ++ xs = rest at h
  rcases h with hnext | @⟨t, _, _, _, hparen, hend⟩
  · subst hrest
    rw [nextIs_append hkeep] at hnext
    exact ⟨keep, rfl, .none hnext⟩
  · subst hrest
    obtain ⟨us, rfl, hus⟩ := groupEnd?_cut hend
    exact ⟨t :: us, rfl, .some hparen hus⟩

/-- Whether a declaration ends with the brace that closes its body. -/
def HasBody (content : Content) : Prop :=
  (∃ c, content = .classType c) ∨ ∃ n, content = .function n

/-- A class or a function is read without what stands behind it. -/
theorem Declaration.cut {content : Content} {last : Token} {rest : List Token}
    (h : Declaration sc ts content last rest) (hcontent : HasBody content) :
    ∃ us, ts = us ++ rest ∧ [last] <:+ us ∧ Declaration sc us content last [] := by
  cases h with
  | enumeration => simp [HasBody] at hcontent
  | assignment => simp [HasBody] at hcontent
  | classType hattributes hkind hname hbases hbody =>
    obtain ⟨third, rfl, hbody'⟩ := @Body.cut _ [] _ _ hbody
    have hthird : third ≠ [] := hbody'.suffix.ne_nil (List.cons_ne_nil _ _)
    obtain ⟨second, rfl, hbases'⟩ := hbases.cut hthird
    obtain ⟨first, rfl, hname'⟩ := hname.cut
    obtain ⟨us, rfl, hattributes'⟩ :=
      @Attributes.cut _ _ (_ :: first) _ _ hattributes (List.cons_ne_nil _ _)
    have hsecond := hbody'.suffix.trans (hbases'.suffix.trans hname'.suffix)
    have hlast := (hsecond.trans (List.suffix_cons _ _)).trans hattributes'.suffix
    exact ⟨us, rfl, hlast, .classType hattributes' hkind hname' hbases' hbody'⟩
  | function hattributes hkind hname hparameters hbody =>
    obtain ⟨third, rfl, hbody'⟩ := @Body.cut _ [] _ _ hbody
    have hthird : third ≠ [] := hbody'.suffix.ne_nil (List.cons_ne_nil _ _)
    obtain ⟨second, rfl, hparameters'⟩ := hparameters.cut hthird
    have hne : second ≠ [] := hparameters'.suffix.ne_nil hthird
    obtain ⟨first, rfl, hname'⟩ := hname.cut hne
    obtain ⟨us, rfl, hattributes'⟩ :=
      @Attributes.cut _ _ (_ :: first) _ _ hattributes (List.cons_ne_nil _ _)
    have hsecond := hbody'.suffix.trans (hparameters'.suffix.trans hname'.suffix)
    have hlast := (hsecond.trans (List.suffix_cons _ _)).trans hattributes'.suffix
    exact ⟨us, rfl, hlast, .function hattributes' hkind hname' hparameters' hbody'⟩

theorem Expression.cut {before : Option TokenKind} {es rest : List Token} {last : Token}
    (h : Expression before ts es rest) (hlast : (es.filter isSignificant).getLast? = some last) :
    ∃ us xs es', ts = us ++ xs ∧ us.getLast? = some last ∧ Expression before us es' [] ∧
      es'.filter isSignificant = es.filter isSignificant := by
  induction h with
  | atEnd => cases hlast
  | stop => cases hlast
  | @group before t close ts mid es rest hends hopener hend hmore ih =>
    have hopen := isSignificant_of_isOpener hopener
    have hclose := isSignificant_of_isCloser (groupEnd?_isCloser hend)
    rw [List.filter_cons, if_pos hopen, List.filter_cons, if_pos hclose,
      List.getLast?_cons_cons] at hlast
    -- what is kept behind the group, if its closer is not the last token already
    have hkept : ∃ ms xs es', mid = ms ++ xs ∧ (close :: ms).getLast? = some last ∧
        Expression (some close.kind) ms es' [] ∧
        es'.filter isSignificant = es.filter isSignificant := by
      cases hsome : es.filter isSignificant with
      | nil =>
        rw [hsome] at hlast
        exact ⟨[], mid, [], rfl, hlast, .atEnd, rfl⟩
      | cons u us =>
        rw [hsome, List.getLast?_cons_cons, ← hsome] at hlast
        obtain ⟨ms, xs, es', rfl, hms, hread, hfilter⟩ := ih hlast
        refine ⟨ms, xs, es', rfl, ?_, hread, hfilter.trans hsome⟩
        rw [List.getLast?_cons, hms]
        rfl
    obtain ⟨ms, xs, es', rfl, hms, hread, hfilter⟩ := hkept
    obtain ⟨us, rfl, hend'⟩ := groupEnd?_cut hend
    obtain ⟨front, rfl⟩ := groupEnd?_suffix hend'
    refine ⟨t :: (front ++ close :: ms), xs, t :: close :: es', rfl, ?_,
      .group hends hopener hend' hread, ?_⟩
    · rw [← List.cons_append, List.getLast?_append_of_ne_nil _ (List.cons_ne_nil _ _)]
      exact hms
    · rw [List.filter_cons, List.filter_cons, List.filter_cons, List.filter_cons, hfilter]
  | @token before t ts es rest hends hopener hmore ih =>
    cases hsome : es.filter isSignificant with
    | nil =>
      rw [List.filter_cons, hsome] at hlast
      split at hlast
      · next ht =>
        obtain rfl : t = last := by simpa using hlast
        refine ⟨[t], ts, [t], rfl, rfl, .token hends hopener .atEnd, ?_⟩
        rw [List.filter_cons, List.filter_cons, hsome]
        rfl
      · cases hlast
    | cons u us =>
      have hsame := getLast?_filter_tail hlast (by simp [hsome])
      obtain ⟨us, xs, es', rfl, hus, hread, hfilter⟩ := ih hsame
      refine ⟨t :: us, xs, t :: es', rfl, ?_, .token hends hopener hread, ?_⟩
      · rw [List.getLast?_cons, hus]
        rfl
      · rw [List.filter_cons, List.filter_cons, hfilter]

/-- In front of its first significant token an expression takes comments only. -/
theorem Expression.start {es rest more : List Token} {start : Token}
    (h : Expression none ts es rest) (hsignificant : es.filter isSignificant = start :: more) :
    ∃ comments us es', ts = comments ++ start :: us ∧ (∀ t ∈ comments, t.kind = .comment) ∧
      Expression none (start :: us) es' rest ∧ es'.filter isSignificant = start :: more := by
  induction ts generalizing es with
  | nil =>
    cases h
    cases hsignificant
  | cons t ts ih =>
    by_cases ht : isSignificant t = true
    · have hfirst : start = t := by
        cases h with
        | stop => cases hsignificant
        | group =>
          rw [List.filter_cons, if_pos ht] at hsignificant
          exact (List.cons.inj hsignificant).1.symm
        | token =>
          rw [List.filter_cons, if_pos ht] at hsignificant
          exact (List.cons.inj hsignificant).1.symm
      subst hfirst
      exact ⟨[], ts, es, rfl, by simp, h, hsignificant⟩
    · cases h with
      | stop => cases hsignificant
      | group _ hopener => exact absurd (isSignificant_of_isOpener hopener) ht
      | token hends _ hmore =>
        have hcomment : t.kind = .comment := by
          simp only [endsExpression, continuesLine, Bool.or_eq_false_iff, Bool.not_false,
            Bool.and_true, beq_eq_false_iff_ne] at hends
          by_contra hcomment
          exact ht (by simp [isSignificant, hcomment, hends.2])
        have hbefore : lastKind none t = none := if_pos hcomment
        rw [hbefore] at hmore
        rw [List.filter_cons, if_neg ht] at hsignificant
        obtain ⟨comments, us, es', rfl, hcomments, hread, hfilter⟩ := ih hmore hsignificant
        refine ⟨t :: comments, us, es', rfl, ?_, hread, hfilter⟩
        rw [List.forall_mem_cons]
        exact ⟨hcomment, hcomments⟩

end Grammar

/-! ### What stands in front is cut off -/

/-- Places in a stretch of a text, taken to the same places of another copy of it. -/
def excerpt (place dest : Position) (text : Text) : Recast where
  place p := dest.advance (text.take (p.offset - place.offset))
  behind := []

/-- Whether a token lies within a stretch of a text. -/
structure Token.LiesIn (t : Token) (offset length : Nat) : Prop where
  behind : offset ≤ t.start.offset
  ordered : t.start.offset ≤ t.stop.offset
  within : t.stop.offset ≤ offset + length

section

variable {before : Option TokenKind} {qs : List Piece} {rest : Text}

theorem liesIn_of_mem {place : Position} {t : Token} (h : Spells before rest qs)
    (ht : t ∈ tokensOf place qs) : t.LiesIn place.offset (textOf qs).length := by
  obtain ⟨i, hi⟩ := List.mem_iff_getElem?.mp ht
  obtain ⟨front, c, w, l, back, rfl, -, rfl⟩ := exists_lexeme hi
  have hlen := (spells_append.mp h).2.1.2.2
  have hstart : (l.token (place.advance (textOf front)) c w).start.offset =
      place.offset + (textOf front).length := advance_offset _ _
  have hstop : (l.token (place.advance (textOf front)) c w).stop.offset =
      place.offset + (textOf front).length + (w.length + 1) := by
    rw [token_stop hlen, advance_offset, advance_offset, List.length_cons]
  have hlength : (textOf (front ++ .lexeme c w l :: back)).length =
      (textOf front).length + (w.length + 1 + (textOf back).length) := by
    simp [Piece.text]
    omega
  constructor <;> omega

theorem excerpt_place {place dest : Position} {pre back : Text} :
    (excerpt place dest (pre ++ back)).place (place.advance pre) = dest.advance pre := by
  have hlength : (place.advance pre).offset - place.offset = pre.length := by
    rw [advance_offset, Nat.add_sub_cancel_left]
  change dest.advance ((pre ++ back).take ((place.advance pre).offset - place.offset)) = _
  rw [hlength, List.take_left]

theorem map_excerpt (h : Spells before rest qs) (place dest : Position) (pre : Text) :
    (tokensOf (place.advance pre) qs).map (excerpt place dest (pre ++ textOf qs)).token =
      tokensOf (dest.advance pre) qs := by
  induction qs generalizing before pre with
  | nil => rfl
  | cons q qs ih =>
    have hmore := ih h.2 (pre ++ q.text)
    rw [advance_append, advance_append, List.append_assoc] at hmore
    cases q with
    | gap c w => exact hmore
    | lexeme c w l =>
      have htake : w.take l.extra = w := by rw [← h.1.2.2, List.take_length]
      have hstart := @excerpt_place place dest pre (textOf (.lexeme c w l :: qs))
      have hstop := @excerpt_place place dest (pre ++ c :: w) (textOf qs)
      rw [List.append_assoc, advance_append, advance_append] at hstop
      have htoken : (excerpt place dest (pre ++ textOf (.lexeme c w l :: qs))).token
          (l.token (place.advance pre) c w) = l.token (dest.advance pre) c w := by
        simp only [Lexeme.token, Recast.token, htake]
        rw [hstart]
        exact congrArg (Token.mk _ _ _ · _) hstop
      rw [tokensOf, tokensOf, List.map_cons, htoken]
      exact congrArg (_ :: ·) hmore

/-- The tokens of a row of pieces, elsewhere. -/
theorem tokens_excerpt (h : Spells before rest qs) (place dest : Position) :
    (excerpt place dest (textOf qs)).tokens (tokensOf place qs) = tokensOf dest qs := by
  have hall := map_excerpt h place dest []
  change List.map _ _ ++ [] = _
  rw [List.append_nil]
  exact hall

end

theorem excerpt_of {sc whole : Script} {place dest : Position} {front mid back front' back' : Text}
    (hsource : sc.source = front ++ (mid ++ back)) (hplace : place.offset = front.length)
    (hwhole : whole.source = front' ++ (mid ++ back')) (hdest : dest.offset = front'.length) :
    (excerpt place dest mid).Of sc whole fun t => t.LiesIn place.offset mid.length := by
  have hslice : ∀ (before behind : Text) (i j : Nat), i ≤ j → j ≤ mid.length →
      ((before ++ (mid ++ behind)).drop (before.length + i)).take (j - i) =
        (mid.drop i).take (j - i) := by
    intro before behind i j hij hj
    rw [← List.drop_drop, List.drop_left, List.drop_append_of_le_length (hij.trans hj),
      List.take_append_of_le_length]
    rw [List.length_drop]
    omega
  have hoffset : ∀ i, i ≤ mid.length →
      (dest.advance (mid.take i)).offset = front'.length + i := by
    intro i hi
    rw [advance_offset, hdest, List.length_take_of_le hi]
  constructor
  · intro t u ht hu
    obtain ⟨i, hi⟩ := Nat.exists_eq_add_of_le ht.behind
    obtain ⟨j, hj⟩ := Nat.exists_eq_add_of_le (hu.behind.trans hu.ordered)
    have hilength : i ≤ mid.length := by
      have := ht.ordered.trans ht.within
      omega
    have hjlength : j ≤ mid.length := by
      have := hu.within
      omega
    have hleft : sc.slice t u = ((front ++ (mid ++ back)).drop (front.length + i)).take (j - i) := by
      rw [Script.slice, hsource, hi, hj, hplace, Nat.add_sub_add_left]
    have hright : whole.slice ((excerpt place dest mid).token t) ((excerpt place dest mid).token u) =
        ((front' ++ (mid ++ back')).drop (front'.length + i)).take (j - i) := by
      have hstart : ((excerpt place dest mid).token t).start.offset = front'.length + i := by
        change (dest.advance (mid.take (t.start.offset - place.offset))).offset = _
        rw [hi, Nat.add_sub_cancel_left, hoffset i hilength]
      have hstop : ((excerpt place dest mid).token u).stop.offset = front'.length + j := by
        change (dest.advance (mid.take (u.stop.offset - place.offset))).offset = _
        rw [hj, Nat.add_sub_cancel_left, hoffset j hjlength]
      rw [Script.slice, hwhole, hstart, hstop, Nat.add_sub_add_left]
    rw [hleft, hright]
    by_cases hij : i ≤ j
    · rw [hslice front back i j hij hjlength, hslice front' back' i j hij hjlength]
    · have hzero : j - i = 0 := by omega
      rw [hzero, List.take_zero, List.take_zero]
  · intro t ht
    cases ht

/-! ### Excerpts of a source -/

/-- The pieces of a row of tokens, from its first to its last token. -/
theorem exists_excerpt {before : Option TokenKind} {place : Position} {ps : List Piece}
    {a us b : List Token} {t last : Token} (h : Spells before [] ps)
    (hsplit : tokensOf place ps = a ++ (us ++ b)) (hhead : us.head? = some t)
    (hlast : us.getLast? = some last) :
    ∃ front qs back, ps = front ++ (qs ++ back) ∧ tokensOf place front = a ∧
      tokensOf (place.advance (textOf front)) qs = us ∧
      t.start = place.advance (textOf front) ∧
      last.stop = place.advance (textOf front ++ textOf qs) ∧
      ∃ c w l more, qs = .lexeme c w l :: more ∧ l.kind = t.kind := by
  obtain ⟨us, rfl⟩ := List.getLast?_eq_some_iff.mp hlast
  rw [List.append_assoc, ← List.append_assoc] at hsplit
  obtain ⟨init, d, v, k, back, rfl, hinit, rfl, -⟩ := exists_split hsplit
  have hlen := (spells_append.mp h).2.1.2.2
  cases us with
  | nil =>
    obtain rfl : k.token (place.advance (textOf init)) d v = t := by simpa using hhead
    rw [List.append_nil] at hinit
    refine ⟨init, [.lexeme d v k], back, rfl, hinit, rfl, rfl, ?_, d, v, k, [], rfl, rfl⟩
    rw [token_stop hlen, ← advance_append]
    simp [Piece.text]
  | cons u us =>
    obtain rfl : u = t := by simpa using hhead
    obtain ⟨front, c, w, l, inner, rfl, hfront, rfl, hinner⟩ := exists_split hinit
    refine ⟨front, .lexeme c w l :: (inner ++ [.lexeme d v k]), back, by simp, hfront, ?_, rfl, ?_,
      c, w, l, _, rfl, rfl⟩
    · rw [tokensOf, tokensOf_append, ← advance_append, hinner]
      simp only [tokensOf, ← advance_append]
      simp [Piece.text]
    · rw [token_stop hlen, ← advance_append]
      simp [Piece.text]

/-- At the end of a text pieces are what they were in front of more of it. -/
theorem Spells.at_end {before : Option TokenKind} {qs : List Piece} {rest : Text}
    (h : Spells before rest qs) : Spells before [] qs := by
  apply h.change_rest (Ahead.nil rest)
  · intro hopens
    cases hopens
  · rintro p _ _ ⟨r, hr⟩
    cases hr

/-- Pieces that are read as one declaration inside a source are a source of it. -/
theorem Grammar.Declaration.classify_textOf {sc : Script} {front back : Text} {c : Char} {w : Text}
    {l : Lexeme} {more : List Piece} {content : Content} {last : Token}
    (h : Declaration sc (tokensOf (Position.start.advance front) (.lexeme c w l :: more)) content
      last []) (hspells : Spells none [] (.lexeme c w l :: more))
    (hsource : sc.source = front ++ (textOf (.lexeme c w l :: more) ++ back))
    (hstop : last.stop = Position.start.advance (front ++ textOf (.lexeme c w l :: more)))
    (file : Option Text) :
    ∃ st, Script.classify file (textOf (.lexeme c w l :: more)) = .ok [st] ∧
      st.content = content ∧ st.text = textOf (.lexeme c w l :: more) := by
  generalize hqs : Piece.lexeme c w l :: more = qs at *
  let place := Position.start.advance front
  let whole : Script := ⟨file, textOf qs, tokensOf .start qs, Position.start.advance (textOf qs)⟩
  have hplace : place.offset = front.length := by
    rw [advance_offset]
    exact Nat.zero_add _
  have hof := @excerpt_of sc whole place .start _ _ _ [] [] hsource hplace (by simp [whole]) rfl
  have hin : Recast.Within (fun u => u.LiesIn place.offset (textOf qs).length)
      (tokensOf place qs) := fun u hu => liesIn_of_mem hspells hu
  have hnone : ∀ v, content = .assignment v → ([] : List Token) = [] →
      (excerpt place .start (textOf qs)).behind ≠ [] →
      Script.continuesLine (some last.kind) = false := by
    intro v _ _ hbehind
    exact absurd rfl hbehind
  have hplaced := hof.declaration_tokens h hin hnone
  rw [tokens_excerpt hspells] at hplaced
  have hend : ((excerpt place .start (textOf qs)).token last).stop =
      Position.start.advance ([] ++ textOf qs) := by
    have hwhole := @excerpt_place place .start (textOf qs) []
    rw [List.append_nil, ← advance_append, ← hstop] at hwhole
    exact hwhole
  subst hqs
  refine ⟨_, classify_iff.mpr ⟨_, scanFrom_textOf hspells .start, .declaration hplaced .nil⟩,
    rfl, ?_⟩
  exact @slice_mid whole _ _ [] _ [] (by simp [whole]) rfl hend

/-- The source of a class or a function is a source of it alone. -/
theorem Grammar.Declaration.classify_slice {sc : Script} {ps : List Piece} {t last : Token}
    {ts rest : List Token} {content : Content} (h : Declaration sc (t :: ts) content last rest)
    (hcontent : HasBody content) (hspells : Spells none [] ps) (hsource : sc.source = textOf ps)
    (hts : t :: ts <:+ tokensOf .start ps) (file : Option Text) :
    ∃ st, Script.classify file (sc.slice t last) = .ok [st] ∧ st.content = content ∧
      st.text = sc.slice t last := by
  obtain ⟨us, hus, ⟨init, rfl⟩, hread⟩ := h.cut hcontent
  obtain ⟨a, hall⟩ := hts
  have hhead : (init ++ [last]).head? = some t := by
    have hfirst := congrArg List.head? hus
    rw [List.head?_append_of_ne_nil _ (by simp)] at hfirst
    exact hfirst.symm
  have hsplit : tokensOf .start ps = a ++ ((init ++ [last]) ++ rest) := by rw [← hall, hus]
  obtain ⟨front, qs, back, rfl, -, htokens, hstart, hstop, c, w, l, more, rfl, hkind⟩ :=
    exists_excerpt hspells hsplit hhead List.getLast?_concat
  have htext : sc.source = textOf front ++ (textOf (.lexeme c w l :: more) ++ textOf back) := by
    rw [hsource, textOf_append, textOf_append]
  have hinside := (spells_append.mp (spells_append.mp hspells).2).1.at_end
  -- no dash starts a declaration, so it is read alike at the start of a text
  have halone : readsAlone l.kind = true := by
    rw [hkind]
    rcases h.head_kind with h | h | h | h | h <;> rw [h] <;> rfl
  rw [slice_mid htext hstart hstop]
  rw [← htokens] at hread
  exact hread.classify_textOf (hinside.any_before halone none) htext hstop file

end ScriptModule
