/-
  ScriptModule/Proofs/LineCut.lean
  ================================
  **Cutting lines out of a text.**  When whole lines are cut out and no lexeme is cut in
  two, the lexemes on the other lines are read as before, but for a dash in front of a
  digit: it is a sign or not by what stands in front of it then.
-/
import ScriptModule.Proofs.Pieces

namespace ScriptModule

open Lexeme

/-! ### Cutting characters -/

/-- The text without the characters at the offsets that are cut; it starts at `o`. -/
def keptText (cut : Nat → Bool) (o : Nat) : Text → Text
  | [] => []
  | c :: t => if cut o then keptText cut (o + 1) t else c :: keptText cut (o + 1) t

/-- Whether an offset is cut together with the rest of its line. -/
def LineWise (cut : Nat → Bool) (o : Nat) (t : Text) : Prop :=
  ∀ k c, t[k]? = some c → c ≠ '\n' → k + 1 < t.length → cut (o + k + 1) = cut (o + k)

section Cut

variable {cut : Nat → Bool}

theorem keptText_append (o : Nat) (a b : Text) :
    keptText cut o (a ++ b) = keptText cut o a ++ keptText cut (o + a.length) b := by
  induction a generalizing o with
  | nil => rfl
  | cons c a ih =>
    have hnext : o + 1 + a.length = o + (c :: a).length := by
      rw [List.length_cons]
      omega
    by_cases hc : cut o = true <;> simp [keptText, hc, ih, hnext]

theorem keptText_congr {cut' : Nat → Bool} {o : Nat} {t : Text}
    (h : ∀ k, o ≤ k → cut k = cut' k) : keptText cut o t = keptText cut' o t := by
  induction t generalizing o with
  | nil => rfl
  | cons c t ih =>
    have hrest := ih fun k hk => h k (Nat.le_of_succ_le hk)
    rw [keptText, keptText, h o (Nat.le_refl o), hrest]

theorem keptText_of_kept {o : Nat} {t : Text} (h : ∀ k < t.length, cut (o + k) = false) :
    keptText cut o t = t := by
  induction t generalizing o with
  | nil => rfl
  | cons c t ih =>
    have hhead : cut o = false := h 0 (by simp)
    have htail : ∀ k < t.length, cut (o + 1 + k) = false := by
      intro k hk
      rw [Nat.add_assoc, Nat.add_comm 1 k]
      exact h (k + 1) (by simpa using hk)
    simp [keptText, hhead, ih htail]

theorem keptText_of_cut {o : Nat} {t : Text} (h : ∀ k < t.length, cut (o + k) = true) :
    keptText cut o t = [] := by
  induction t generalizing o with
  | nil => rfl
  | cons c t ih =>
    have hhead : cut o = true := h 0 (by simp)
    have htail : ∀ k < t.length, cut (o + 1 + k) = true := by
      intro k hk
      rw [Nat.add_assoc, Nat.add_comm 1 k]
      exact h (k + 1) (by simpa using hk)
    simp [keptText, hhead, ih htail]

theorem LineWise.append_right {o : Nat} {a b : Text} (h : LineWise cut o (a ++ b)) :
    LineWise cut (o + a.length) b := by
  intro k c hk hc hlen
  have := h (a.length + k) c (by rw [List.getElem?_append_right (by omega)]; simpa using hk) hc
    (by rw [List.length_append]; omega)
  rw [← Nat.add_assoc] at this
  exact this

theorem LineWise.append_left {o : Nat} {a b : Text} (h : LineWise cut o (a ++ b)) :
    LineWise cut o a := by
  intro k c hk hc hlen
  exact h k c (by rw [List.getElem?_append_left (by omega)]; exact hk) hc
    (by rw [List.length_append]; omega)

/-- From a line that is kept on, the rest of the line is kept. -/
theorem keptText_line {o : Nat} {t : Text} (h : LineWise cut o t) (hkept : cut o = false) :
    (keptText cut o t).takeWhile (· ≠ '\n') = t.takeWhile (· ≠ '\n') := by
  induction t generalizing o with
  | nil => rfl
  | cons c t ih =>
    by_cases hc : c = '\n'
    · simp [keptText, hkept, hc]
    · cases t with
      | nil => simp [keptText, hkept]
      | cons d t =>
        have hnext : cut (o + 1) = false := by
          have hsame : cut (o + 1) = cut o := h 0 c rfl hc (by simp)
          rw [hsame, hkept]
        have htail : LineWise cut (o + 1) (d :: t) := LineWise.append_right (a := [c]) h
        have hrest := ih htail hnext
        rw [keptText, hkept, if_neg Bool.false_ne_true,
          List.takeWhile_cons_of_pos (by simpa using hc),
          List.takeWhile_cons_of_pos (by simpa using hc), hrest]

end Cut

/-! ### Cutting pieces -/

def keptPieces (cut : Nat → Bool) (o : Nat) : List Piece → List Piece
  | [] => []
  | p :: ps =>
    if cut o then keptPieces cut (o + p.text.length) ps
    else p :: keptPieces cut (o + p.text.length) ps

/-- Whether pieces are each cut as a whole or not at all. -/
def CutWhole (cut : Nat → Bool) (o : Nat) : List Piece → Prop
  | [] => True
  | p :: ps => (∀ k < p.text.length, cut (o + k) = cut o) ∧ CutWhole cut (o + p.text.length) ps

theorem keptText_textOf {cut : Nat → Bool} {o : Nat} {ps : List Piece}
    (h : CutWhole cut o ps) : keptText cut o (textOf ps) = textOf (keptPieces cut o ps) := by
  induction ps generalizing o with
  | nil => rfl
  | cons p ps ih =>
    obtain ⟨hp, hps⟩ := h
    rw [textOf_cons, keptText_append, ih hps, keptPieces]
    cases hcut : cut o with
    | true =>
      rw [keptText_of_cut (fun k hk => (hp k hk).trans hcut)]
      rfl
    | false =>
      rw [keptText_of_kept (fun k hk => (hp k hk).trans hcut)]
      rfl

theorem LineWise.constant {cut : Nat → Bool} {o : Nat} {t : Text} (h : LineWise cut o t)
    (hline : ∀ k, k + 1 < t.length → t[k]? ≠ some '\n') {k : Nat} (hk : k < t.length) :
    cut (o + k) = cut o := by
  induction k with
  | zero => rfl
  | succ k ih =>
    have hstep := h k t[k] (List.getElem?_eq_getElem (by omega))
      (fun hc => hline k hk (by rw [List.getElem?_eq_getElem (by omega), hc])) hk
    rw [← Nat.add_assoc, hstep, ih (by omega)]

theorem gap_line {sign : Bool} {c : Char} {w rest : Text} (h : (Piece.gap c w).Fits sign rest)
    {k : Nat} (hk : k + 1 < (c :: w).length) : (c :: w)[k]? ≠ some '\n' := by
  rcases gap_cases h with ⟨-, -, rfl⟩ | ⟨rfl, rfl | rfl | ⟨rfl, -⟩⟩
  · simp at hk
  · rcases k with _ | _ | k
    · simp
    · simp
    · simp only [List.length_cons, List.length_nil] at hk
      omega
  · rcases k with _ | k
    · simp
    · simp only [List.length_cons, List.length_nil] at hk
      omega
  · rcases k with _ | k
    · simp
    · simp only [List.length_cons, List.length_nil] at hk
      omega

/-- If no token is cut in two, no piece is. -/
theorem cutWhole_of_tokens {cut : Nat → Bool} {place : Position} {before : Option TokenKind}
    {ps : List Piece} {rest : Text} (h : Spells before rest ps)
    (hline : LineWise cut place.offset (textOf ps))
    (hwhole : ∀ t ∈ tokensOf place ps, ∀ o < t.stop.offset, t.start.offset ≤ o →
      cut o = cut t.start.offset) : CutWhole cut place.offset ps := by
  induction ps generalizing place before with
  | nil => trivial
  | cons p ps ih =>
    obtain ⟨hp, hps⟩ := h
    have hplace := advance_offset place p.text
    have hlines : LineWise cut (place.advance p.text).offset (textOf ps) :=
      hplace ▸ hline.append_right
    rw [CutWhole, ← hplace]
    cases p with
    | gap c w =>
      refine ⟨fun k hk => ?_, ih hps hlines hwhole⟩
      exact hline.append_left.constant (fun j hj => gap_line hp hj) hk
    | lexeme c w l =>
      refine ⟨fun k hk => ?_, ih hps hlines fun t ht => hwhole t (List.mem_cons_of_mem _ ht)⟩
      refine hwhole _ List.mem_cons_self _ ?_ (Nat.le_add_right _ _)
      rw [token_stop hp.2.2, advance_offset]
      exact Nat.add_lt_add_left hk _

/-! ### Reading what is left -/

/-- Whether each dash that is kept stands behind a kind that allows a sign, or does not,
    whether tokens in front of it are cut or not. -/
def signsKept (cut : Nat → Bool) (before kept : Option TokenKind) : List Token → Bool
  | [] => true
  | t :: ts =>
    if cut t.start.offset then signsKept cut (lastKind before t) kept ts
    else (t.text.head? != some '-' || signMayFollow before == signMayFollow kept) &&
      signsKept cut (lastKind before t) (lastKind kept t) ts

theorem Piece.Fits.congr_sign {a b : Bool} {p : Piece} {rest : Text} (h : p.Fits a rest)
    (hsign : ∀ w l, p = .lexeme '-' w l → a = b) : p.Fits b rest := by
  cases p with
  | gap c w => exact h
  | lexeme c w l =>
    obtain ⟨hgap, hread, hlen⟩ := h
    by_cases hc : c = '-'
    · subst hc
      obtain rfl := hsign w l rfl
      exact ⟨hgap, hread, hlen⟩
    · exact ⟨hgap, by rw [read_sign hc b a]; exact hread, hlen⟩

/-- In front of a kept piece, the kept ones behind it are the same to the end of the line. -/
theorem Piece.Fits.kept {cut : Nat → Bool} {sign : Bool} {p : Piece} {o : Nat}
    {ps : List Piece} {rest : Text} {before : Option TokenKind}
    (h : p.Fits sign (textOf ps ++ rest)) (hps : Spells before rest ps)
    (hwhole : CutWhole cut o (p :: ps)) (hline : LineWise cut o (p.text ++ textOf ps))
    (hkept : cut o = false) :
    p.Fits sign (textOf (keptPieces cut (o + p.text.length) ps) ++ []) := by
  by_cases hlast : p.text.getLast? = some '\n'
  · exact h.of_newline hlast _
  · cases ps with
    | nil =>
      exact h.ahead (Ahead.nil _) (fun _ ⟨r, hr⟩ => by cases hr) (fun hopen => by cases hopen)
    | cons q qs =>
      -- the next piece starts on the same line
      have hnext : cut (o + p.text.length) = false := by
        obtain ⟨c, hc⟩ := Option.ne_none_iff_exists'.mp
          (mt List.getLast?_eq_none_iff.mp p.text_ne_nil)
        have hpos := List.length_pos_iff.mpr p.text_ne_nil
        have hidx : p.text[p.text.length - 1]? = some c := by
          rw [← List.getLast?_eq_getElem?, hc]
        have hstep := hline (p.text.length - 1) c
          (by rw [List.getElem?_append_left (by omega), hidx])
          (by rintro rfl; exact hlast hc)
          (by
            have := List.length_pos_iff.mpr q.text_ne_nil
            simp only [textOf_cons, List.length_append]
            omega)
        have hin := hwhole.1 (p.text.length - 1) (by omega)
        rw [Nat.add_assoc, Nat.sub_add_cancel hpos] at hstep
        rw [hstep, hin, hkept]
      have hrest : textOf (keptPieces cut (o + p.text.length) (q :: qs)) =
          q.text ++ textOf (keptPieces cut (o + p.text.length + q.text.length) qs) := by
        rw [keptPieces, hnext]
        rfl
      have hsame := keptText_line hline.append_right hnext
      rw [keptText_textOf hwhole.2] at hsame
      rw [textOf_cons, List.append_assoc] at h
      rw [hrest, List.append_assoc]
      apply h.ahead_of_next hps.1
      rw [List.append_nil, ← hrest, ← List.append_assoc, ← textOf_cons]
      exact Ahead.of_line hsame rest

theorem signsKept_cut {cut : Nat → Bool} {place : Position} {before kept : Option TokenKind}
    {p : Piece} {ps : List Piece} (hcut : cut place.offset = true)
    (h : signsKept cut before kept (tokensOf place (p :: ps)) = true) :
    signsKept cut (p.after before) kept (tokensOf (place.advance p.text) ps) = true := by
  cases p with
  | gap c w => exact h
  | lexeme c w l =>
    have hstart : cut (l.token place c w).start.offset = true := hcut
    rw [tokensOf, signsKept, if_pos hstart, lastKind_token] at h
    exact h

theorem signsKept_kept {cut : Nat → Bool} {place : Position} {before kept : Option TokenKind}
    {p : Piece} {ps : List Piece} (hcut : cut place.offset = false)
    (h : signsKept cut before kept (tokensOf place (p :: ps)) = true) :
    (∀ w l, p = .lexeme '-' w l → signMayFollow before = signMayFollow kept) ∧
      signsKept cut (p.after before) (p.after kept) (tokensOf (place.advance p.text) ps) = true := by
  cases p with
  | gap c w => exact ⟨by simp, h⟩
  | lexeme c w l =>
    have hstart : ¬ cut (l.token place c w).start.offset = true := by
      rw [Bool.not_eq_true]
      exact hcut
    rw [tokensOf, signsKept, if_neg hstart, Bool.and_eq_true, Bool.or_eq_true] at h
    refine ⟨?_, h.2⟩
    intro w' l' heq
    cases heq
    rcases h.1 with hhead | hsame
    · simp [token, Lexeme.text] at hhead
    · exact beq_iff_eq.mp hsame

/-- Behind the cut, the pieces on the other lines are read as before. -/
theorem Spells.keptPieces {cut : Nat → Bool} {place : Position}
    {before kept : Option TokenKind} {ps : List Piece} {rest : Text}
    (h : Spells before rest ps) (hwhole : CutWhole cut place.offset ps)
    (hline : LineWise cut place.offset (textOf ps))
    (hsigns : signsKept cut before kept (tokensOf place ps) = true) :
    Spells kept [] (keptPieces cut place.offset ps) := by
  induction ps generalizing place before kept with
  | nil => trivial
  | cons p ps ih =>
    obtain ⟨hp, hps⟩ := h
    have hplace := advance_offset place p.text
    have hrest := hplace ▸ hwhole.2
    have hlines : LineWise cut (place.advance p.text).offset (textOf ps) :=
      hplace ▸ hline.append_right
    rw [ScriptModule.keptPieces]
    cases hcut : cut place.offset with
    | true =>
      rw [if_pos rfl, ← hplace]
      exact ih hps hrest hlines (signsKept_cut hcut hsigns)
    | false =>
      obtain ⟨hdash, hsigns⟩ := signsKept_kept hcut hsigns
      rw [if_neg Bool.false_ne_true]
      refine ⟨(hp.kept hps hwhole hline hcut).congr_sign hdash, ?_⟩
      rw [← hplace]
      exact ih hps hrest hlines hsigns

/-! ### Tokens apart from their places -/

/-- What tokens say, line ends aside. -/
def spelling (ts : List Token) : List (TokenKind × Text × Option Text) :=
  (ts.filter fun t => t.kind != .newline).map Token.said

theorem spelling_cons (t : Token) (ts : List Token) :
    spelling (t :: ts) = if t.kind = .newline then spelling ts else t.said :: spelling ts := by
  by_cases ht : t.kind = .newline <;> simp [spelling, ht]

theorem spelling_tokensOf (a b : Position) (ps : List Piece) :
    spelling (tokensOf a ps) = spelling (tokensOf b ps) := by
  have hspelling : ∀ ts, spelling ts = (ts.map Token.said).filter fun s => s.1 != .newline := by
    intro ts
    rw [List.filter_map]
    rfl
  rw [hspelling, hspelling, said_tokensOf]

theorem spelling_keptPieces (cut : Nat → Bool) (place other : Position) (ps : List Piece) :
    spelling (tokensOf other (keptPieces cut place.offset ps)) =
      spelling ((tokensOf place ps).filter fun t => !cut t.start.offset) := by
  induction ps generalizing place other with
  | nil => rfl
  | cons p ps ih =>
    have hplace := advance_offset place p.text
    rw [keptPieces, ← hplace]
    cases p with
    | gap c w =>
      cases hcut : cut place.offset with
      | true => exact ih _ _
      | false => exact ih _ _
    | lexeme c w l =>
      have hstart : (l.token place c w).start.offset = place.offset := rfl
      rw [tokensOf, List.filter_cons, hstart]
      cases hcut : cut place.offset with
      | true => exact ih _ _
      | false =>
        simp only [Bool.false_eq_true, if_false, Bool.not_false, if_true]
        rw [tokensOf, spelling_cons, spelling_cons, ih]
        rfl

end ScriptModule
