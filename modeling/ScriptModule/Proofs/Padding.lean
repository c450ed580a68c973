/-
  ScriptModule/Proofs/Padding.lean
  ================================
  **Lexemes in front of a blank.**  No lexeme but a comment to the end of its line goes on
  with a blank, and none waits for one.  So a text that is cut into pieces is cut into the
  same ones when a blank and more follow, unless it ends with such a comment.
-/
import ScriptModule.Proofs.Pieces

namespace ScriptModule

open Unicode

namespace Lexeme

/-! ### Runs -/

variable {u : Text}

theorem startsWith_pad {p : Char → Bool} (hp : p ' ' = false) (t : Text) :
    startsWith p (t ++ ' ' :: u) = startsWith p t := by
  cases t with
  | nil => exact hp
  | cons c t => rfl

theorem takeWhile_pad {p : Char → Bool} (hp : p ' ' = false) (t : Text) :
    (t ++ ' ' :: u).takeWhile p = t.takeWhile p := by
  induction t with
  | nil => simp [hp]
  | cons c t ih =>
    rw [List.cons_append, List.takeWhile_cons, List.takeWhile_cons, ih]

theorem runLength_pad {p : Char → Bool} (hp : p ' ' = false) (t : Text) :
    runLength p (t ++ ' ' :: u) = runLength p t := by
  rw [runLength, takeWhile_pad hp, ← runLength]

/-! ### Comments and strings -/

theorem blockCommentLength?_pad {t : Text} {n : Nat} (h : blockCommentLength? t = some n) :
    blockCommentLength? (t ++ ' ' :: u) = some n := by
  fun_induction blockCommentLength? t generalizing n with
  | case1 => cases h
  | case2 r => exact h
  | case3 c r hmark ih =>
    obtain ⟨m, hm, heq⟩ := Option.map_eq_some_iff.mp h
    have hlong := two_le_blockCommentLength? hm
    cases r with
    | nil => cases hm
    | cons d r =>
      have hrest := ih hm
      rw [List.cons_append] at hrest
      rw [List.cons_append, List.cons_append, blockCommentLength?, hrest]
      · exact congrArg some heq
      · exact fun r' hc hr => hmark r hc (by rw [(List.cons.inj hr).1])

theorem singleQuoted?_pad {t v : Text} {n : Nat} (h : singleQuoted? t = some (n, v)) :
    singleQuoted? (t ++ ' ' :: u) = some (n, v) := by
  fun_induction singleQuoted? t generalizing n v with
  | case1 => cases h
  | case2 r ih =>
    obtain ⟨⟨m, x⟩, hm, heq⟩ := Option.map_eq_some_iff.mp h
    rw [List.cons_append, List.cons_append, singleQuoted?, ih hm]
    exact congrArg some heq
  | case3 r hnext =>
    cases h
    rw [List.cons_append, singleQuoted?]
    cases r with
    | nil => simp
    | cons c r => simpa using hnext
  | case4 c r h1 h2 ih =>
    obtain ⟨⟨m, x⟩, hm, heq⟩ := Option.map_eq_some_iff.mp h
    rw [List.cons_append, singleQuoted?, ih hm]
    · exact congrArg some heq
    · exact fun _ hc _ => h2 hc
    · exact h2

theorem exists_cons_of_doubleQuoted? {nest : List Nest} {t : Text} {r : Nat × Text}
    (h : doubleQuoted? nest t = some r) : ∃ c t', t = c :: t' := by
  cases t with
  | nil => simp [doubleQuoted?] at h
  | cons c t => exact ⟨c, t, rfl⟩

theorem doubleQuoted?_pad {nest : List Nest} {t v : Text} {n : Nat}
    (h : doubleQuoted? nest t = some (n, v)) :
    doubleQuoted? nest (t ++ ' ' :: u) = some (n, v) := by
  fun_induction doubleQuoted? nest t generalizing n v
  case case1 => cases h
  case case4 r hnext =>
    cases h
    rw [List.cons_append, doubleQuoted?]
    cases r with
    | nil => simp
    | cons c r => simpa using hnext
  -- every other case goes on behind one or two characters, and the next one is there
  all_goals
    rename_i ih
    obtain ⟨⟨m, x⟩, hm, heq⟩ := Option.map_eq_some_iff.mp h
    have hrest := ih hm
    first
      | (simp only [List.cons_append, doubleQuoted?, hrest]
         exact congrArg some heq)
      | (obtain ⟨d, r, rfl⟩ := exists_cons_of_doubleQuoted? hm
         simp only [List.cons_append] at hrest ⊢
         rw [doubleQuoted?, hrest]
         · exact congrArg some heq
         all_goals simp_all)

/-! ### Here-strings -/

theorem hereBody?_pad {quote : Char} {atLineStart : Bool} {t v : Text} {n : Nat}
    (h : hereBody? quote atLineStart t = some (n, v)) :
    hereBody? quote atLineStart (t ++ ' ' :: u) = some (n, v) := by
  induction t generalizing atLineStart n v with
  | nil => cases h
  | cons c t ih =>
    rw [List.cons_append, hereBody?, startsWith_pad (by decide)]
    rw [hereBody?] at h
    split at h
    · next hmark => exact (if_pos hmark).trans h
    · next hmark =>
      obtain ⟨⟨m, x⟩, hm, heq⟩ := Option.map_eq_some_iff.mp h
      rw [if_neg hmark, ih hm]
      exact congrArg some heq

theorem hereString?_pad {t v : Text} {n : Nat} (h : hereString? t = some (n, v)) :
    hereString? (t ++ ' ' :: u) = some (n, v) := by
  obtain ⟨quote, line, body, m, x, rfl, hline, hm, rfl, rfl⟩ := hereString?_eq_some h
  rw [List.cons_append, List.append_assoc, List.cons_append, hereString?_line hline,
    hereBody?_pad hm]
  rfl

/-- A here-string that has not opened at the end of a text does not open behind a blank. -/
theorem opensHereString_pad {t : Text} (h : opensHereString t = false) :
    opensHereString (t ++ ' ' :: u) = false := by
  cases t with
  | nil => rfl
  | cons quote r =>
    by_cases hblank : ∃ d ∈ r, (d = ' ' || d = '\t') = false
    · obtain ⟨d, hd, hsign⟩ := hblank
      have hsame := opensHereString_of_mem hd hsign quote (' ' :: u) []
      rw [List.append_nil] at hsame
      exact hsame.trans h
    · have hall : ∀ d ∈ r, (d = ' ' || d = '\t') = true := fun d hd => by
        by_contra hsign
        exact hblank ⟨d, hd, Bool.eq_false_iff.mpr hsign⟩
      have hnil : r.dropWhile (fun c => c = ' ' || c = '\t') = [] :=
        List.dropWhile_eq_nil_iff.mpr hall
      have hquote : (quote = '\'' || quote = '"') = false := by
        simpa [opensHereString, hnil] using h
      rw [List.cons_append, opensHereString, hquote, Bool.false_and]

/-! ### Variables and marks -/

theorem bracedLength?_pad {t : Text} {n : Nat} (h : bracedLength? t = some n) :
    bracedLength? (t ++ ' ' :: u) = some n := by
  fun_induction bracedLength? t generalizing n with
  | case1 => cases h
  | case2 r => exact h
  | case3 c r ih =>
    obtain ⟨m, hm, heq⟩ := Option.map_eq_some_iff.mp h
    rw [List.cons_append, List.cons_append, bracedLength?, ih hm]
    exact congrArg some heq
  | case4 c r hclose hkeep ih =>
    obtain ⟨m, hm, heq⟩ := Option.map_eq_some_iff.mp h
    cases r with
    | nil => cases hm
    | cons d r =>
      have hrest := ih hm
      rw [List.cons_append] at hrest ⊢
      rw [List.cons_append, bracedLength?, hrest]
      · exact congrArg some heq
      · exact hclose
      · exact fun e r' hc _ => hkeep d r hc rfl

theorem scopedLength_pad (t : Text) : scopedLength (t ++ ' ' :: u) = scopedLength t := by
  induction t with
  | nil => rfl
  | cons c t ih =>
    rw [List.cons_append, scopedLength, scopedLength, startsWith_pad (by decide), ih]

theorem dollar_pad {t : Text} {l : Lexeme} (h : dollar t = .ok l) :
    dollar (t ++ ' ' :: u) = .ok l := by
  cases t with
  | nil =>
    cases h
    rfl
  | cons c r =>
    by_cases hparen : c = '('
    · subst hparen
      exact h
    · by_cases hbrace : c = '\x7b'
      · subst hbrace
        simp only [dollar] at h
        split at h
        · next n hn =>
          simp only [List.cons_append, dollar, bracedLength?_pad hn]
          exact h
        · cases h
      · rw [List.cons_append, dollar_cons hparen hbrace, startsWith_pad (by decide),
          ← List.cons_append, scopedLength_pad, ← dollar_cons hparen hbrace]
        exact h

theorem ne_cons_pad {t : Text} {c : Char} (hc : c ≠ ' ') (h : ∀ r, t ≠ c :: r) (r : Text) :
    t ++ ' ' :: u ≠ c :: r := by
  cases t with
  | nil => exact fun heq => hc (List.cons.inj heq).1.symm
  | cons d t => exact fun heq => h t (by rw [(List.cons.inj heq).1])

theorem atSign_pad {t : Text} {l : Lexeme} (h : atSign t = .ok l) :
    atSign (t ++ ' ' :: u) = .ok l := by
  by_cases hparen : ∃ r, t = '(' :: r
  · obtain ⟨r, rfl⟩ := hparen
    exact h
  · by_cases hbrace : ∃ r, t = '\x7b' :: r
    · obtain ⟨r, rfl⟩ := hbrace
      exact h
    · rw [not_exists] at hparen hbrace
      rw [atSign_of_ne hparen hbrace] at h
      rw [atSign_of_ne (ne_cons_pad (by decide) hparen) (ne_cons_pad (by decide) hbrace),
        startsWith_pad (by decide), runLength_pad (by decide)]
      by_cases hopens : opensHereString t = true
      · rw [if_pos hopens] at h
        split at h
        · next n v hstring =>
          obtain ⟨quote, line, body, _, _, rfl, -, -, -, -⟩ := hereString?_eq_some hstring
          have hsame := opensHereString_of_mem (u := line ++ ['\n']) (d := '\n') (by simp)
            (by decide) quote (body ++ ' ' :: u) body
          simp only [List.append_assoc, List.singleton_append] at hsame
          have hopens' : opensHereString (quote :: (line ++ '\n' :: body) ++ ' ' :: u) = true := by
            rw [← hopens, ← hsame, List.cons_append, List.append_assoc, List.cons_append]
          rw [if_pos hopens', hereString?_pad hstring]
          exact h
        · cases h
      · rw [if_neg hopens] at h
        rw [if_neg (by rw [opensHereString_pad (Bool.eq_false_iff.mpr hopens)]; decide)]
        exact h

/-! ### Numbers and words -/

theorem fractionLength_pad (t : Text) : fractionLength (t ++ ' ' :: u) = fractionLength t := by
  cases t with
  | nil => rfl
  | cons c t =>
    by_cases hc : c = '.'
    · subst hc
      rw [List.cons_append, fractionLength, fractionLength, startsWith_pad (by decide),
        runLength_pad (by decide)]
    · rw [List.cons_append, fractionLength, fractionLength]
      · simpa using hc
      · simpa using hc

theorem digitsLength_pad (first : Char) (t : Text) :
    digitsLength first (t ++ ' ' :: u) = digitsLength first t := by
  rcases digitsLength_cases first t with ⟨m, s, hm, rfl⟩ | ⟨a, s, rfl, ha, hs, hx, hX, hlength⟩
  · rw [List.cons_append, digitsLength_mark hm, digitsLength_mark hm, runLength_pad (by decide)]
  · have hstops : Stops isDigit (s ++ ' ' :: u) := (startsWith_pad (by decide) s).trans hs
    have hne : ∀ m, m ≠ ' ' → (∀ r, a ++ s ≠ m :: r) → ∀ r, a ++ (s ++ ' ' :: u) ≠ m :: r := by
      intro m hm hold
      rw [← List.append_assoc]
      exact ne_cons_pad hm hold
    rw [hlength, List.append_assoc, digitsLength_append ha hstops (hne 'x' (by decide) hx)
      (hne 'X' (by decide) hX), fractionLength_pad]

theorem numberLength_pad (first : Char) (t : Text) :
    numberLength first (t ++ ' ' :: u) = numberLength first t := by
  have hle := (digitsLength_le_line first t).trans (lineLength_le_length t)
  rw [numberLength, numberLength, digitsLength_pad, List.drop_append_of_le_length hle,
    runLength_pad (by decide)]

theorem dash_pad (sign : Bool) (t : Text) : dash sign (t ++ ' ' :: u) = dash sign t := by
  cases t with
  | nil => rfl
  | cons c t =>
    rw [List.cons_append, dash, dash, numberLength_pad, ← List.cons_append,
      runLength_pad (by decide)]

theorem plain_pad (c : Char) (t : Text) : plain c (t ++ ' ' :: u) = plain c t := by
  rw [plain, plain, numberLength_pad, takeWhile_pad (by decide), runLength_pad (by decide),
    startsWith_pad (by decide)]

/-- In front of a blank the same lexeme is read as at the end of a text, but for a comment to
    the end of the line. -/
theorem read_pad {sign : Bool} {c : Char} {t : Text} {l : Lexeme} (hc : c ≠ '#')
    (h : read sign c t = .ok l) : read sign c (t ++ ' ' :: u) = .ok l := by
  apply Reads.read_eq
  cases reads_of_read h with
  | lineComment => exact absurd rfl hc
  | punctuation _ hp => exact .punctuation _ hp
  | blockComment hn => exact .blockComment (blockCommentLength?_pad hn)
  | dollar h => exact .dollar (dollar_pad h)
  | atSign h => exact .atSign (atSign_pad h)
  | singleQuoted hs => exact .singleQuoted (singleQuoted?_pad hs)
  | doubleQuoted hs => exact .doubleQuoted (doubleQuoted?_pad hs)
  | dash =>
    rw [← dash_pad]
    exact .dash _
  | doubleColon => exact .doubleColon _
  | colon hcolon => exact .colon (ne_cons_pad (by decide) hcolon)
  | plain hplain =>
    rw [← plain_pad]
    exact .plain ⟨hplain.mark, hplain.other, fun hc =>
      ne_cons_pad (by decide) (hplain.angle hc)⟩

theorem gapLength_pad {c : Char} (t : Text) :
    gapLength (c :: (t ++ ' ' :: u)) = gapLength (c :: t) := by
  by_cases hc : c = '\x60'
  · subst hc
    rw [gapLength_backtick, gapLength_backtick]
    rcases t with _ | ⟨d, _ | ⟨e, t⟩⟩
    · rfl
    · simp only [List.cons_append, List.nil_append]
      split <;> simp_all
    · by_cases hline : d = '\r' ∧ e = '\n'
      · obtain ⟨rfl, rfl⟩ := hline
        rfl
      · simp only [List.cons_append]
        split <;> simp_all
  · rw [gapLength_of_ne hc, gapLength_of_ne hc]

end Lexeme

/-! ### Pieces in front of a blank -/

open Lexeme

/-- Whether a piece is a comment that goes to the end of its line. -/
def Piece.isLineComment : Piece → Bool
  | .gap _ _ => false
  | .lexeme c _ _ => c == '#'

theorem Piece.Fits.pad {sign : Bool} {p : Piece} {t u : Text} (h : p.Fits sign t)
    (hp : p.isLineComment = true → t ≠ []) : p.Fits sign (t ++ ' ' :: u) := by
  cases p with
  | gap c w =>
    rw [Fits] at h ⊢
    rw [← h, List.cons_append, List.cons_append, ← List.append_assoc, gapLength_pad]
  | lexeme c w l =>
    obtain ⟨hgap, hread, hlen⟩ := h
    rw [List.cons_append] at hgap
    refine ⟨?_, ?_, hlen⟩
    · rw [List.cons_append, ← List.append_assoc, gapLength_pad, hgap]
    · rw [← List.append_assoc]
      by_cases hc : c = '#'
      · -- the comment ends in front of the text behind it
        subst hc
        have hl : l = ⟨.comment, lineCommentLength (w ++ t), none⟩ := (Except.ok.inj hread).symm
        have hrun : lineCommentLength (w ++ t) = w.length := by rw [hlen, hl]
        obtain ⟨d, t, rfl⟩ := List.exists_cons_of_ne_nil (hp rfl)
        obtain ⟨hw, hstops⟩ := runLength_append_eq.mp hrun
        have hrun' : lineCommentLength (w ++ (d :: t ++ ' ' :: u)) = w.length :=
          runLength_append_eq.mpr ⟨hw, hstops⟩
        rw [← List.append_assoc] at hrun'
        rw [hl, hrun, ← hrun']
        rfl
      · exact read_pad hc hread

/-- Pieces stay as they are when a blank and more follow behind what stands behind them. -/
theorem Spells.pad {before : Option TokenKind} {rest : Text} {ps : List Piece}
    (h : Spells before rest ps)
    (hlast : rest = [] → ∀ p ∈ ps.getLast?, p.isLineComment = false) (u : Text) :
    Spells before (rest ++ ' ' :: u) ps := by
  induction ps generalizing before with
  | nil => trivial
  | cons p ps ih =>
    obtain ⟨hp, hps⟩ := h
    refine ⟨?_, ih hps fun hrest q hq => ?_⟩
    · rw [← List.append_assoc]
      refine hp.pad fun hcomment hnil => ?_
      -- the comment would be the last piece
      obtain ⟨htext, hrest⟩ := List.append_eq_nil_iff.mp hnil
      have hnone : ps = [] := by
        cases ps with
        | nil => rfl
        | cons q qs =>
          rw [textOf_cons] at htext
          exact absurd (List.append_eq_nil_iff.mp htext).1 q.text_ne_nil
      rw [hlast hrest p (by simp [hnone])] at hcomment
      cases hcomment
    · apply hlast hrest q
      rw [List.getLast?_cons, hq]
      rfl

end ScriptModule
