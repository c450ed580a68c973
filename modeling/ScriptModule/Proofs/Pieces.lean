/-
  ScriptModule/Proofs/Pieces.lean
  ===============================
  **Texts as pieces.**  A scan cuts a text into pieces: gaps, and lexemes with what they
  were read as.  Each piece is judged with the characters behind it in place, so a row
  of pieces can be cut in two, and what follows it can be exchanged.
-/
import ScriptModule.Proofs.LexemeEnd

namespace ScriptModule

open Lexeme

/-! ### Pieces -/

/-- A stretch of a text that is skipped, or read as a lexeme; it is never empty. -/
inductive Piece where
  | gap (first : Char) (more : Text)
  | lexeme (first : Char) (more : Text) (l : Lexeme)
deriving DecidableEq, Repr

namespace Piece

def text : Piece → Text
  | gap c w => c :: w
  | lexeme c w _ => c :: w

/-- The kind that decides how the next lexeme is read, behind a piece. -/
def after (before : Option TokenKind) : Piece → Option TokenKind
  | gap _ _ => before
  | lexeme _ _ l => if l.kind = .comment then before else some l.kind

/-- Whether this is what is cut off in front of the rest. -/
def Fits (sign : Bool) (rest : Text) : Piece → Prop
  | gap c w => gapLength (c :: w ++ rest) = w.length + 1
  | lexeme c w l =>
    gapLength (c :: w ++ rest) = 0 ∧ read sign c (w ++ rest) = .ok l ∧ w.length = l.extra

end Piece

def textOf (ps : List Piece) : Text := ps.flatMap Piece.text

@[simp] theorem textOf_nil : textOf [] = [] := rfl

@[simp] theorem textOf_cons (p : Piece) (ps : List Piece) :
    textOf (p :: ps) = p.text ++ textOf ps := rfl

@[simp] theorem textOf_append (ps qs : List Piece) :
    textOf (ps ++ qs) = textOf ps ++ textOf qs := List.flatMap_append

theorem Piece.text_ne_nil (p : Piece) : p.text ≠ [] := by
  cases p <;> exact List.cons_ne_nil _ _

/-- Whether a text is cut into the pieces `ps` with `rest` behind them. -/
def Spells (before : Option TokenKind) (rest : Text) : List Piece → Prop
  | [] => True
  | p :: ps => p.Fits (signMayFollow before) (textOf ps ++ rest) ∧ Spells (p.after before) rest ps

def afterAll (before : Option TokenKind) (ps : List Piece) : Option TokenKind :=
  ps.foldl Piece.after before

theorem spells_append {before : Option TokenKind} {rest : Text} {ps qs : List Piece} :
    Spells before rest (ps ++ qs) ↔
      Spells before (textOf qs ++ rest) ps ∧ Spells (afterAll before ps) rest qs := by
  induction ps generalizing before with
  | nil => simp [Spells, afterAll]
  | cons p ps ih =>
    simp only [List.cons_append, Spells, ih, textOf_append, List.append_assoc, and_assoc]
    rfl

/-! ### Scans -/

def tokensOf (place : Position) : List Piece → List Token
  | [] => []
  | .gap c w :: ps => tokensOf (place.advance (c :: w)) ps
  | .lexeme c w l :: ps => l.token place c w :: tokensOf (place.advance (c :: w)) ps

theorem advance_append (place : Position) (a b : Text) :
    place.advance (a ++ b) = (place.advance a).advance b := List.foldl_append

theorem advance_offset (place : Position) (t : Text) :
    (place.advance t).offset = place.offset + t.length := by
  induction t generalizing place with
  | nil => rfl
  | cons c t ih =>
    have hnext : (place.next c).offset = place.offset + 1 := by
      simp only [Position.next]
      split <;> rfl
    change ((place.next c).advance t).offset = _
    rw [ih, hnext, List.length_cons]
    omega

theorem advance_start_offset (t : Text) : (Position.start.advance t).offset = t.length :=
  (advance_offset _ t).trans (Nat.zero_add _)

theorem token_append {l : Lexeme} {w : Text} (h : w.length = l.extra) (place : Position)
    (c : Char) (rest : Text) : l.token place c (w ++ rest) = l.token place c w := by
  simp only [token, Lexeme.text, ← h, List.take_left, List.take_length]

theorem token_stop {l : Lexeme} {w : Text} (h : w.length = l.extra) (place : Position)
    (c : Char) : (l.token place c w).stop = place.advance (c :: w) := by
  simp only [token, ← h, List.take_length]

@[simp] theorem token_kind (l : Lexeme) (place : Position) (c : Char) (r : Text) :
    (l.token place c r).kind = l.kind := rfl

theorem lastKind_token (before : Option TokenKind) (place : Position) (c : Char) (w : Text)
    (l : Lexeme) : lastKind before (l.token place c w) = (Piece.lexeme c w l).after before := rfl

/-- A text that is cut into pieces is scanned into their tokens. -/
theorem scanFrom_textOf {before : Option TokenKind} {ps : List Piece}
    (h : Spells before [] ps) (place : Position) :
    scanFrom before place (textOf ps) = .ok ⟨tokensOf place ps, place.advance (textOf ps)⟩ := by
  induction ps generalizing before place with
  | nil =>
    rw [textOf_nil, scanFrom]
    rfl
  | cons p ps ih =>
    obtain ⟨hp, hps⟩ := h
    rw [List.append_nil] at hp
    cases p with
    | gap c w =>
      have hgap : gapLength (c :: (w ++ textOf ps)) = w.length + 1 := hp
      have hrest : Spells before [] ps := hps
      rw [textOf_cons, Piece.text, List.cons_append, scanFrom, hgap]
      simp only [List.take_left, List.drop_left]
      rw [ih hrest, tokensOf, ← List.cons_append, advance_append]
    | lexeme c w l =>
      obtain ⟨hgap, hread, hlen⟩ := hp
      rw [List.cons_append] at hgap
      rw [textOf_cons, Piece.text, List.cons_append, scanFrom, hgap]
      simp only [hread, token_append hlen, lastKind_token]
      rw [token_stop hlen, ← hlen, List.drop_left, ih hps, tokensOf, ← List.cons_append, advance_append]

theorem tokensOf_append (place : Position) (ps qs : List Piece) :
    tokensOf place (ps ++ qs) = tokensOf place ps ++ tokensOf (place.advance (textOf ps)) qs := by
  induction ps generalizing place with
  | nil => rfl
  | cons p ps ih =>
    rw [List.cons_append, textOf_cons, advance_append]
    cases p with
    | gap c w => exact ih _
    | lexeme c w l =>
      rw [tokensOf, tokensOf, ih]
      rfl

theorem exists_lexeme {place : Position} {ps : List Piece} {i : Nat} {t : Token}
    (h : (tokensOf place ps)[i]? = some t) :
    ∃ front c w l back, ps = front ++ .lexeme c w l :: back ∧
      (tokensOf place ps).take i = tokensOf place front ∧
      t = l.token (place.advance (textOf front)) c w := by
  induction ps generalizing place i with
  | nil => cases h
  | cons p ps ih =>
    cases p with
    | gap c w =>
      obtain ⟨front, c', w', l', back, rfl, htake, rfl⟩ := ih h
      exact ⟨.gap c w :: front, c', w', l', back, rfl, htake,
        by rw [textOf_cons, advance_append]; rfl⟩
    | lexeme c w l =>
      cases i with
      | zero =>
        cases h
        exact ⟨[], c, w, l, ps, rfl, rfl, rfl⟩
      | succ i =>
        obtain ⟨front, c', w', l', back, rfl, htake, rfl⟩ := ih h
        refine ⟨.lexeme c w l :: front, c', w', l', back, rfl, ?_,
          by rw [textOf_cons, advance_append]; rfl⟩
        exact congrArg (l.token place c w :: ·) htake

theorem exists_last_lexeme {place : Position} {before : Option TokenKind} {ps : List Piece}
    {rest : Text} {a b : List Token} {t : Token} (h : Spells before rest ps)
    (hsplit : tokensOf place ps = a ++ t :: b)
    (hstop : place.offset + (textOf ps).length ≤ t.stop.offset) :
    ∃ front c w l, ps = front ++ [.lexeme c w l] ∧ tokensOf place front = a ∧
      t = l.token (place.advance (textOf front)) c w ∧ b = [] := by
  have hget : (tokensOf place ps)[a.length]? = some t := by simp [hsplit]
  obtain ⟨front, c, w, l, back, rfl, htake, rfl⟩ := exists_lexeme hget
  rw [hsplit, List.take_left] at htake
  have hback : back = [] := by
    have hlen := (spells_append.mp h).2.1.2.2
    rw [token_stop hlen, advance_offset, advance_offset] at hstop
    simp only [textOf_append, textOf_cons, List.length_append, Piece.text] at hstop
    have hnil : textOf back = [] := List.eq_nil_of_length_eq_zero (by omega)
    cases back with
    | nil => rfl
    | cons p ps => exact absurd (List.append_eq_nil_iff.mp hnil).1 p.text_ne_nil
  subst hback
  rw [tokensOf_append, htake] at hsplit
  exact ⟨front, c, w, l, rfl, htake.symm, rfl,
    (List.cons.inj (List.append_cancel_left hsplit)).2.symm⟩

/-- What a token says, apart from its place. -/
def Token.said (t : Token) : TokenKind × Text × Option Text := (t.kind, t.text, t.value)

theorem said_tokensOf (a b : Position) (ps : List Piece) :
    (tokensOf a ps).map Token.said = (tokensOf b ps).map Token.said := by
  induction ps generalizing a b with
  | nil => rfl
  | cons p ps ih =>
    cases p with
    | gap c w => exact ih _ _
    | lexeme c w l => exact congrArg ((l.kind, l.text c w, l.value) :: ·) (ih _ _)

theorem token_start_lt {place : Position} {ps : List Piece} {t : Token}
    (h : t ∈ tokensOf place ps) : t.start.offset < place.offset + (textOf ps).length := by
  induction ps generalizing place with
  | nil => cases h
  | cons p ps ih =>
    have hplace := advance_offset place p.text
    rw [textOf_cons, List.length_append]
    cases p with
    | gap c w =>
      have := @ih (place.advance (c :: w)) h
      simp only [Piece.text] at hplace ⊢
      omega
    | lexeme c w l =>
      rcases List.mem_cons.mp h with rfl | h
      · change place.offset < _
        simp only [Piece.text, List.length_cons]
        omega
      · have := @ih (place.advance (c :: w)) h
        simp only [Piece.text] at hplace ⊢
        omega

theorem gapLength_le (t : Text) : gapLength t ≤ t.length := by
  unfold gapLength
  split
  · simp
  · simp
  · simp
  · split <;> simp
  · exact Nat.le_refl 0

/-- A text that is scanned is cut into pieces. -/
theorem exists_pieces {before : Option TokenKind} {place : Position} {t : Text} {s : Scan}
    (h : scanFrom before place t = .ok s) :
    ∃ ps, textOf ps = t ∧ Spells before [] ps ∧ s.tokens = tokensOf place ps := by
  fun_induction scanFrom before place t generalizing s with
  | case1 before place =>
    cases h
    exact ⟨[], rfl, trivial, rfl⟩
  | case2 before place c r n hgap ih =>
    obtain ⟨ps, htext, hspells, htokens⟩ := ih h
    have hr : r.take n ++ textOf ps = r := by rw [htext, List.take_append_drop]
    have hlen : (r.take n).length = n := by
      have := gapLength_le (c :: r)
      rw [hgap] at this
      exact List.length_take_of_le (Nat.le_of_succ_le_succ this)
    refine ⟨.gap c (r.take n) :: ps, ?_, ⟨?_, hspells⟩, htokens⟩
    · rw [textOf_cons, Piece.text, List.cons_append, hr]
    · rw [Piece.Fits, List.append_nil, List.cons_append, hr, hgap, hlen]
  | case3 before place c r hgap e hread => cases h
  | case4 before place c r hgap l hread tok e hrest => cases h
  | case5 before place c r hgap l hread tok s' hrest =>
    rename_i ih
    cases h
    obtain ⟨ps, htext, hspells, htokens⟩ := ih hrest
    have hr : r.take l.extra ++ textOf ps = r := by rw [htext, List.take_append_drop]
    have hlen : (r.take l.extra).length = l.extra := List.length_take_of_le (read_extra_le hread)
    have htok : tok = l.token place c (r.take l.extra) := by
      rw [← token_append hlen place c (r.drop l.extra), List.take_append_drop]
    refine ⟨.lexeme c (r.take l.extra) l :: ps, ?_, ⟨⟨?_, ?_, hlen⟩, hspells⟩, ?_⟩
    · rw [textOf_cons, Piece.text, List.cons_append, hr]
    · rw [List.append_nil, List.cons_append, hr, hgap]
    · rw [List.append_nil, hr, hread]
    · rw [tokensOf, ← htok]
      exact congrArg (tok :: ·) htokens

/-! ### One way to cut -/

theorem Piece.Fits.unique {sign : Bool} {p q : Piece} {a b : Text} (hp : p.Fits sign a)
    (hq : q.Fits sign b) (htext : p.text ++ a = q.text ++ b) : p = q := by
  have hsame : ∀ {w w' : Text}, w.length = w'.length → w ++ a = w' ++ b → w = w' :=
    fun hlen heq => (List.append_inj heq hlen).1
  cases p with
  | gap c w =>
    have hgap : gapLength (c :: (w ++ a)) = w.length + 1 := hp
    cases q with
    | gap d w' =>
      have hgap' : gapLength (d :: (w' ++ b)) = w'.length + 1 := hq
      obtain ⟨rfl, htail⟩ := List.cons.inj htext
      rw [← show w ++ a = w' ++ b from htail, hgap] at hgap'
      rw [hsame (Nat.succ.inj hgap') htail]
    | lexeme d w' l =>
      have hgap' : gapLength (d :: (w' ++ b)) = 0 := hq.1
      rw [← show c :: (w ++ a) = d :: (w' ++ b) from htext, hgap] at hgap'
      cases hgap'
  | lexeme c w l =>
    obtain ⟨hgap, hread, hlen⟩ := hp
    cases q with
    | gap d w' =>
      have hgap' : gapLength (d :: (w' ++ b)) = w'.length + 1 := hq
      rw [← show c :: (w ++ a) = d :: (w' ++ b) from htext] at hgap'
      cases hgap.symm.trans hgap'
    | lexeme d w' l' =>
      obtain ⟨-, hread', hlen'⟩ := hq
      obtain ⟨rfl, htail⟩ := List.cons.inj htext
      rw [← show w ++ a = w' ++ b from htail, hread] at hread'
      cases hread'
      rw [hsame (hlen.trans hlen'.symm) htail]

/-- A text that starts as pieces do, is cut into these and others behind them. -/
theorem Spells.exists_append {before : Option TokenKind} {ps qs : List Piece} {rest : Text}
    (hp : Spells before rest ps) (hq : Spells before [] qs)
    (htext : textOf qs = textOf ps ++ rest) : ∃ rs, qs = ps ++ rs ∧ textOf rs = rest := by
  induction ps generalizing before qs with
  | nil => exact ⟨qs, rfl, htext⟩
  | cons p ps ih =>
    cases qs with
    | nil =>
      have hne := p.text_ne_nil
      simp only [textOf_nil, textOf_cons, List.append_assoc] at htext
      exact absurd (List.append_eq_nil_iff.mp htext.symm).1 hne
    | cons q qs =>
      rw [textOf_cons, textOf_cons, List.append_assoc] at htext
      obtain rfl : p = q := by
        refine hp.1.unique hq.1 ?_
        rw [List.append_nil]
        exact htext.symm
      obtain ⟨rs, rfl, hrs⟩ := ih hp.2 hq.2 (List.append_cancel_left htext)
      exact ⟨rs, rfl, hrs⟩

/-! ### What follows -/

theorem gapLength_of_ne {c : Char} (hc : c ≠ '\x60') (r : Text) :
    gapLength (c :: r) = if isGap c then 1 else 0 := by
  unfold gapLength
  split <;> simp_all

theorem gapLength_backtick (r : Text) :
    gapLength ('\x60' :: r) =
      match r with
      | '\r' :: '\n' :: _ => 3
      | '\r' :: _ => 2
      | '\n' :: _ => 2
      | _ => 0 := by
  have hgap : isGap '\x60' = false := by decide
  rcases r with _ | ⟨c, r⟩
  · rfl
  · by_cases hcr : c = '\r'
    · subst hcr
      rcases r with _ | ⟨d, r⟩
      · rfl
      · by_cases hlf : d = '\n'
        · subst hlf
          rfl
        · simp [gapLength, hlf]
    · by_cases hlf : c = '\n'
      · subst hlf
        rfl
      · simp [gapLength, hcr, hlf, hgap]

def StartsLine (t : Text) : Prop := ∃ r, t = '\n' :: r

/-- A gap is a blank, or a backtick with the end of its line. -/
theorem gap_cases {sign : Bool} {c : Char} {w rest : Text}
    (h : (Piece.gap c w).Fits sign rest) :
    (c ≠ '\x60' ∧ isGap c = true ∧ w = []) ∨
      (c = '\x60' ∧ (w = ['\r', '\n'] ∨ w = ['\n'] ∨ (w = ['\r'] ∧ ¬ StartsLine rest))) := by
  have hgap : gapLength (c :: (w ++ rest)) = w.length + 1 := h
  by_cases hc : c = '\x60'
  · subst hc
    refine .inr ⟨rfl, ?_⟩
    rw [gapLength_backtick] at hgap
    split at hgap
    · next r hr =>
      obtain ⟨w, rfl, hr, hlen⟩ := cut_cons hr (Nat.succ.inj hgap).symm
      obtain ⟨w, rfl, hr, hlen⟩ := cut_cons hr hlen
      exact .inl (by rw [List.eq_nil_of_length_eq_zero hlen])
    · next r hno hr =>
      obtain ⟨w, rfl, hr, hlen⟩ := cut_cons hr (Nat.succ.inj hgap).symm
      obtain rfl := List.eq_nil_of_length_eq_zero hlen
      refine .inr (.inr ⟨rfl, ?_⟩)
      rintro ⟨r', rfl⟩
      exact hno r' hr.symm
    · next r hr =>
      obtain ⟨w, rfl, hr, hlen⟩ := cut_cons hr (Nat.succ.inj hgap).symm
      exact .inr (.inl (by rw [List.eq_nil_of_length_eq_zero hlen]))
    · cases hgap
  · rw [gapLength_of_ne hc] at hgap
    split at hgap
    · next hblank =>
      exact .inl ⟨hc, hblank, List.eq_nil_of_length_eq_zero (Nat.succ.inj hgap).symm⟩
    · cases hgap

theorem not_fits_gap {sign : Bool} {c : Char} {w rest : Text} (hblank : isGap c = false)
    (hbacktick : c ≠ '\x60') : ¬ (Piece.gap c w).Fits sign rest := by
  intro h
  rcases gap_cases h with ⟨-, hgap, -⟩ | ⟨hc, -⟩
  · cases hblank.symm.trans hgap
  · exact hbacktick hc

/-- Whether a line feed behind a piece would become part of it. -/
def Piece.Open (p : Piece) : Prop := p.text = ['\x60'] ∨ p.text = ['\x60', '\r']

theorem gapLength_zero_ahead {c : Char} {w new old : Text}
    (h : gapLength (c :: (w ++ old)) = 0) (ha : Ahead new old)
    (hline : c :: w = ['\x60'] → ¬ StartsLine new) : gapLength (c :: (w ++ new)) = 0 := by
  by_cases hc : c = '\x60'
  · subst hc
    have hzero : ∀ r, gapLength ('\x60' :: r) = 0 ↔ (∀ s, r ≠ '\r' :: s) ∧ ¬ StartsLine r := by
      intro r
      rw [gapLength_backtick]
      split <;> simp_all [StartsLine]
    rw [hzero] at h ⊢
    cases w with
    | nil => exact ⟨ha.ne_cons (by decide) h.1, hline rfl⟩
    | cons d w =>
      constructor
      · intro s hs
        exact h.1 (w ++ old) (by rw [List.cons_append, (List.cons.inj hs).1])
      · rintro ⟨s, hs⟩
        exact h.2 ⟨w ++ old, by rw [List.cons_append, (List.cons.inj hs).1]⟩
  · rw [gapLength_of_ne hc] at h ⊢
    exact h

theorem Piece.Fits.gap {sign : Bool} {c : Char} {w new old : Text}
    (h : (Piece.gap c w).Fits sign old) (hline : (Piece.gap c w).Open → ¬ StartsLine new)
    (other : Bool) : (Piece.gap c w).Fits other new := by
  rcases gap_cases h with ⟨hc, hblank, rfl⟩ | ⟨rfl, rfl | rfl | ⟨rfl, -⟩⟩
  · change gapLength (c :: new) = 1
    rw [gapLength_of_ne hc, if_pos hblank]
  · rfl
  · rfl
  · change gapLength ('\x60' :: '\r' :: new) = 2
    have hnew : ¬ StartsLine new := hline (.inr rfl)
    rw [gapLength_backtick]
    split
    · next r hr => exact absurd ⟨r, (List.cons.inj hr).2⟩ hnew
    · rfl
    · rfl
    · simp_all

/-- A piece is the same if the line behind it goes on as before or ends earlier. -/
theorem Piece.Fits.ahead {sign : Bool} {p : Piece} {new old : Text} (h : p.Fits sign old)
    (ha : Ahead new old) (hline : p.Open → ¬ StartsLine new)
    (hopen : opensHereString new = true → opensHereString old = true) : p.Fits sign new := by
  cases p with
  | gap c w => exact h.gap hline sign
  | lexeme c w l =>
    obtain ⟨hgap, hread, hlen⟩ := h
    exact ⟨gapLength_zero_ahead hgap ha fun hw => hline (.inl hw),
      read_ahead hread hlen ha fun _ => hopen, hlen⟩

/-- A line feed that is a token of its own is nothing more. -/
theorem Piece.Fits.line_feed {sign : Bool} {w rest : Text} {l : Lexeme}
    (h : (Piece.lexeme '\n' w l).Fits sign rest) : w = [] ∧ l = ⟨.newline, 0, none⟩ := by
  obtain ⟨-, hread, hlen⟩ := h
  rw [read_of_punctuation (k := .newline) rfl] at hread
  cases hread
  exact ⟨List.eq_nil_of_length_eq_zero hlen, rfl⟩

theorem Piece.Fits.of_newline {sign : Bool} {p : Piece} {old : Text} (h : p.Fits sign old)
    (hlast : p.text.getLast? = some '\n') (new : Text) : p.Fits sign new := by
  cases p with
  | gap c w =>
    rcases gap_cases h with ⟨hc, hblank, rfl⟩ | ⟨rfl, rfl | rfl | ⟨rfl, hno⟩⟩
    · simp [Piece.text] at hlast
      subst hlast
      exact absurd hblank (by decide)
    · rfl
    · rfl
    · cases hlast
  | lexeme c w l =>
    by_cases hc : c = '\n'
    · subst hc
      obtain ⟨rfl, rfl⟩ := h.line_feed
      exact ⟨rfl, rfl, rfl⟩
    · obtain ⟨-, hread, hlen⟩ := h
      have hne := getLast?_read_ne hread hc
      rw [← hlen, List.take_left] at hne
      exact absurd hlast hne

theorem startsLine_text_append (q : Piece) (x y : Text) :
    StartsLine (q.text ++ x) ↔ StartsLine (q.text ++ y) := by
  obtain ⟨c, w, hw⟩ := List.exists_cons_of_ne_nil q.text_ne_nil
  simp [StartsLine, hw]

theorem Piece.Fits.not_startsLine {sign : Bool} {p : Piece} {rest : Text}
    (h : p.Fits sign rest) (ho : p.Open) : ¬ StartsLine rest := by
  rintro ⟨r, rfl⟩
  cases p with
  | gap c w =>
    rcases gap_cases h with ⟨hc, -, rfl⟩ | ⟨rfl, rfl | rfl | ⟨rfl, hno⟩⟩
    · rcases ho with ho | ho
      · exact hc (List.cons.inj ho).1
      · cases ho
    · rcases ho with ho | ho <;> cases ho
    · rcases ho with ho | ho <;> cases ho
    · exact hno ⟨r, rfl⟩
  | lexeme c w l =>
    obtain ⟨hgap, -, -⟩ := h
    rcases ho with ho | ho <;> obtain ⟨rfl, rfl⟩ := List.cons.inj ho <;> cases hgap

/-- Whether a here-string opens in front of a piece is decided by the piece. -/
theorem Piece.Fits.opensHereString_eq {sign : Bool} {q : Piece} {rest : Text}
    (h : q.Fits sign rest) (x y : Text) :
    opensHereString (q.text ++ x) = opensHereString (q.text ++ y) := by
  have hother : ∀ (c : Char) (w : Text), c ≠ '\'' → c ≠ '"' →
      opensHereString (c :: w ++ x) = opensHereString (c :: w ++ y) := by
    intro c w h1 h2
    simp [opensHereString, h1, h2]
  cases q with
  | gap c w =>
    apply hother
    · rintro rfl
      exact not_fits_gap (by decide) (by decide) h
    · rintro rfl
      exact not_fits_gap (by decide) (by decide) h
  | lexeme c w l =>
    obtain ⟨-, hread, hlen⟩ := h
    by_cases hsingle : c = '\''
    · subst hsingle
      have hread : ofString (singleQuoted? (w ++ rest)) = .ok l := hread
      rcases hs : singleQuoted? (w ++ rest) with _ | ⟨n, v⟩ <;> rw [hs] at hread <;> cases hread
      have hlast := getLast?_take_singleQuoted hs
      rw [← show w.length = n from hlen, List.take_left] at hlast
      exact opensHereString_of_mem (List.mem_of_getLast? hlast) (by decide) _ x y
    · by_cases hdouble : c = '"'
      · subst hdouble
        have hread : ofString (doubleQuoted? [] (w ++ rest)) = .ok l := hread
        rcases hs : doubleQuoted? [] (w ++ rest) with _ | ⟨n, v⟩ <;> rw [hs] at hread <;>
          cases hread
        have hlast := getLast?_take_doubleQuoted hs
        rw [← show w.length = n from hlen, List.take_left] at hlast
        exact opensHereString_of_mem (List.mem_of_getLast? hlast) (by decide) _ x y
      · exact hother c w hsingle hdouble

/-- In front of another piece, only the rest of the line behind that matters. -/
theorem Piece.Fits.ahead_of_next {sign sign' : Bool} {p q : Piece} {new old rest : Text}
    (h : p.Fits sign (q.text ++ old)) (hq : q.Fits sign' rest)
    (ha : Ahead (q.text ++ new) (q.text ++ old)) : p.Fits sign (q.text ++ new) := by
  refine h.ahead ha (fun ho hline => ?_) (fun hopen => ?_)
  · exact h.not_startsLine ho ((startsLine_text_append q new old).mp hline)
  · rwa [hq.opensHereString_eq old new]

/-- What follows pieces may be exchanged for a rest of line that goes on as before or
    ends earlier. -/
theorem Spells.change_rest {before : Option TokenKind} {ps : List Piece} {new old : Text}
    (h : Spells before old ps) (ha : Ahead new old)
    (hopen : opensHereString new = true → opensHereString old = true)
    (hline : ∀ p ∈ ps.getLast?, p.Open → ¬ StartsLine new) : Spells before new ps := by
  induction ps generalizing before with
  | nil => trivial
  | cons p ps ih =>
    obtain ⟨hp, hps⟩ := h
    cases ps with
    | nil => exact ⟨hp.ahead ha (hline p rfl) hopen, trivial⟩
    | cons q qs =>
      refine ⟨?_, ih hps (by simpa using hline)⟩
      rw [textOf_cons, List.append_assoc] at hp ⊢
      apply hp.ahead_of_next hps.1
      rw [← List.append_assoc, ← List.append_assoc]
      exact ha.append _

/-- Only what a dash is read as depends on the kind in front. -/
theorem Spells.congr_before {before other : Option TokenKind} {ps : List Piece} {rest : Text}
    (h : Spells before rest ps) (hsign : signMayFollow before = signMayFollow other) :
    Spells other rest ps := by
  induction ps generalizing before other with
  | nil => trivial
  | cons p ps ih =>
    obtain ⟨hp, hps⟩ := h
    refine ⟨hsign ▸ hp, ih hps ?_⟩
    cases p with
    | gap c w => exact hsign
    | lexeme c w l =>
      simp only [Piece.after]
      split
      · exact hsign
      · rfl

end ScriptModule
