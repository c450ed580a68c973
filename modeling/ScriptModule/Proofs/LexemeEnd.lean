/-
  ScriptModule/Proofs/LexemeEnd.lean
  ==================================
  **Where a lexeme ends.**  A lexeme takes characters that are there.  It stays on its
  line, unless it has a closing mark of its own; so no lexeme ends with a line feed but
  the line feed itself.
-/
import ScriptModule.Proofs.Lookahead

namespace ScriptModule.Lexeme

open Unicode

/-! ### Lexemes of one line -/

/-- The length of a text up to the end of its line. -/
def lineLength (t : Text) : Nat := runLength (· ≠ '\n') t

theorem newline_not_mem_take {t : Text} {n : Nat} (h : n ≤ lineLength t) : '\n' ∉ t.take n := by
  have hpre : t.take n <+: t.takeWhile (· ≠ '\n') :=
    List.prefix_of_prefix_length_le (List.take_prefix ..) (List.takeWhile_prefix _)
      (Nat.le_trans (List.length_take_le ..) h)
  intro hmem
  have := List.mem_takeWhile_imp (hpre.subset hmem)
  simp at this

theorem runLength_le_line {p : Char → Bool} (hp : p '\n' = false) (t : Text) :
    runLength p t ≤ lineLength t := by
  induction t with
  | nil => exact Nat.le_refl 0
  | cons c t ih =>
    simp only [runLength, lineLength] at ih ⊢
    by_cases hc : p c = true
    · have hne : c ≠ '\n' := by
        rintro rfl
        rw [hp] at hc
        cases hc
      simpa [hc, hne] using ih
    · simp [hc]

theorem lineLength_drop {t : Text} {n : Nat} (h : n ≤ lineLength t) :
    lineLength (t.drop n) + n = lineLength t := by
  induction n generalizing t with
  | zero => rfl
  | succ n ih =>
    cases t with
    | nil => cases h
    | cons c t =>
      by_cases hc : c = '\n'
      · simp [lineLength, runLength, hc] at h
      · have hline : lineLength (c :: t) = lineLength t + 1 := by
          simp [lineLength, runLength, hc]
        rw [hline] at h ⊢
        rw [List.drop_succ_cons, ← Nat.add_assoc, ih (Nat.le_of_succ_le_succ h)]

theorem digitsLength_le_line (first : Char) (t : Text) :
    digitsLength first t ≤ lineLength t := by
  have hdigit : isDigit '\n' = false := by decide
  have hhex : isHexDigit '\n' = false := by decide
  by_cases hmark : ∃ m r, (m = 'x' ∨ m = 'X') ∧ t = m :: r
  · obtain ⟨m, r, hm, rfl⟩ := hmark
    have hline : lineLength (m :: r) = lineLength r + 1 := by
      rcases hm with rfl | rfl <;> simp [lineLength, runLength]
    have := runLength_le_line hhex r
    rw [digitsLength_mark hm]
    split <;> omega
  · have hwhole := runLength_le_line hdigit t
    have hdrop := lineLength_drop hwhole
    unfold digitsLength
    split
    · next r => exact absurd ⟨'x', r, .inl rfl, rfl⟩ hmark
    · next r => exact absurd ⟨'X', r, .inr rfl, rfl⟩ hmark
    · dsimp only
      split
      · next r hr =>
        have hline : lineLength ('.' :: r) = lineLength r + 1 := by simp [lineLength, runLength]
        have := runLength_le_line hdigit r
        rw [hr, hline] at hdrop
        split <;> omega
      · exact hwhole

theorem numberLength_le_line (first : Char) (t : Text) :
    numberLength first t ≤ lineLength t := by
  have hdigits := digitsLength_le_line first t
  have hletters := runLength_le_line (p := isLetter) (by decide) (t.drop (digitsLength first t))
  have hdrop := lineLength_drop hdigits
  rw [numberLength]
  omega

theorem scopedLength_le_line (t : Text) : scopedLength t ≤ lineLength t := by
  induction t with
  | nil => exact Nat.le_refl 0
  | cons c t ih =>
    by_cases hc : c = '\n'
    · subst hc
      simp [scopedLength, isNameChar_newline]
    · have hline : lineLength (c :: t) = lineLength t + 1 := by
        simp [lineLength, runLength, hc]
      rw [scopedLength]
      split <;> omega

/-! ### Closing marks -/

theorem getLast?_take_blockComment {t : Text} {n : Nat} (h : blockCommentLength? t = some n) :
    (t.take n).getLast? = some '>' := by
  fun_induction blockCommentLength? t generalizing n with
  | case1 => cases h
  | case2 r => cases h; rfl
  | case3 c r _ ih =>
    obtain ⟨m, hm, rfl⟩ := Option.map_eq_some_iff.mp h
    simp [List.getLast?_cons, ih hm]

theorem getLast?_take_singleQuoted {t v : Text} {n : Nat}
    (h : singleQuoted? t = some (n, v)) : (t.take n).getLast? = some '\'' := by
  fun_induction singleQuoted? t generalizing n v with
  | case1 => cases h
  | case3 r => cases h; rfl
  | _ =>
    rename_i ih
    obtain ⟨⟨m, u⟩, hm, heq⟩ := Option.map_eq_some_iff.mp h
    cases heq
    simp [List.getLast?_cons, ih hm]

theorem getLast?_take_doubleQuoted {nest : List Nest} {t v : Text} {n : Nat}
    (h : doubleQuoted? nest t = some (n, v)) : (t.take n).getLast? = some '"' := by
  fun_induction doubleQuoted? nest t generalizing n v with
  | case1 => cases h
  | case4 r => cases h; rfl
  | _ =>
    rename_i ih
    obtain ⟨⟨m, u⟩, hm, heq⟩ := Option.map_eq_some_iff.mp h
    cases heq
    simp [List.getLast?_cons, ih hm]

theorem getLast?_take_hereBody {quote : Char} {atLineStart : Bool} {t v : Text} {n : Nat}
    (h : hereBody? quote atLineStart t = some (n, v)) : (t.take n).getLast? = some '@' := by
  induction t generalizing atLineStart n v with
  | nil => cases h
  | cons c t ih =>
    rw [hereBody?] at h
    split at h
    · next hmark =>
      cases h
      cases t with
      | nil => simp [startsWith] at hmark
      | cons d t =>
        simp only [startsWith, Bool.and_eq_true, decide_eq_true_eq] at hmark
        simp [hmark.2]
    · obtain ⟨⟨m, u⟩, hm, heq⟩ := Option.map_eq_some_iff.mp h
      cases heq
      simp [List.getLast?_cons, ih hm]

theorem getLast?_take_hereString {t v : Text} {n : Nat} (h : hereString? t = some (n, v)) :
    (t.take n).getLast? = some '@' := by
  obtain ⟨quote, line, body, m, u, rfl, -, hm, rfl, -⟩ := hereString?_eq_some h
  have hlast := getLast?_take_hereBody hm
  have htake : (quote :: (line ++ '\n' :: body)).take (line.length + 2 + m) =
      quote :: (line ++ '\n' :: body.take m) := by
    have hcount : line.length + 2 + m = (line.length + (m + 1)) + 1 := by omega
    rw [hcount, List.take_succ_cons, List.take_length_add_append, List.take_succ_cons]
  simp [htake, List.getLast?_cons, List.getLast?_append, hlast]

theorem getLast?_take_braced {t : Text} {n : Nat} (h : bracedLength? t = some n) :
    (t.take n).getLast? = some '\x7d' := by
  fun_induction bracedLength? t generalizing n with
  | case1 => cases h
  | case2 r => cases h; rfl
  | _ =>
    rename_i ih
    obtain ⟨m, hm, rfl⟩ := Option.map_eq_some_iff.mp h
    simp [List.getLast?_cons, ih hm]

/-! ### No line feed at the end -/

theorem getLast?_cons_ne {c : Char} {w : Text} (hc : c ≠ '\n') (hw : '\n' ∉ w) :
    (c :: w).getLast? ≠ some '\n' := by
  intro hlast
  rcases List.mem_cons.mp (List.mem_of_getLast? hlast) with heq | hmem
  · exact hc heq.symm
  · exact hw hmem

theorem getLast?_numberLength_ne {c d : Char} {r : Text} (hc : c ≠ '\n') :
    (c :: r.take (numberLength d r)).getLast? ≠ some '\n' :=
  getLast?_cons_ne hc (newline_not_mem_take (numberLength_le_line d r))

theorem getLast?_dollar_ne {r : Text} {l : Lexeme} (h : dollar r = .ok l) :
    ('$' :: r.take l.extra).getLast? ≠ some '\n' := by
  cases r with
  | nil =>
    cases h
    decide
  | cons c r =>
    by_cases hparen : c = '('
    · subst hparen
      cases h
      simp
    · by_cases hbrace : c = '\x7b'
      · subst hbrace
        simp only [dollar] at h
        split at h
        · next n hn =>
          cases h
          simp [List.getLast?_cons, getLast?_take_braced hn]
        · cases h
      · rw [dollar_cons hparen hbrace] at h
        split at h
        · next hone =>
          cases h
          have hc : c ≠ '\n' := by
            rintro rfl
            simp at hone
          simp [hc]
        · split at h
          · cases h
            exact getLast?_cons_ne (by decide) (newline_not_mem_take (scopedLength_le_line _))
          · cases h
            simp

theorem getLast?_atSign_ne {r : Text} {l : Lexeme} (h : atSign r = .ok l) :
    ('@' :: r.take l.extra).getLast? ≠ some '\n' := by
  unfold atSign at h
  split at h
  · cases h
    simp
  · cases h
    simp
  · split at h
    · split at h
      · next n v hn =>
        cases h
        simp [List.getLast?_cons, getLast?_take_hereString hn]
      · cases h
    · split at h
      · cases h
        exact getLast?_cons_ne (by decide)
          (newline_not_mem_take (runLength_le_line isNameChar_newline _))
      · cases h
        simp

theorem getLast?_dash_ne (sign : Bool) (r : Text) :
    ('-' :: r.take (dash sign r).extra).getLast? ≠ some '\n' := by
  have hparameter : isParameterChar '\n' = false := by decide
  cases r with
  | nil => simp
  | cons c r =>
    simp only [dash]
    split
    · next hnumber =>
      have hc : c ≠ '\n' := by
        rintro rfl
        simp [show isDigit '\n' = false by decide] at hnumber
      rw [Nat.add_comm, List.take_succ_cons]
      refine getLast?_cons_ne (by decide) fun hmem => ?_
      rcases List.mem_cons.mp hmem with heq | hmem
      · exact hc heq.symm
      · exact newline_not_mem_take (numberLength_le_line c r) hmem
    · split
      · exact getLast?_cons_ne (by decide) (newline_not_mem_take (runLength_le_line hparameter _))
      · split
        · next hmark =>
          have hc : c ≠ '\n' := by
            rintro rfl
            simp at hmark
          simp [hc]
        · simp

theorem getLast?_plain_ne {c : Char} (hc : c ≠ '\n') (r : Text) :
    (c :: r.take (plain c r).extra).getLast? ≠ some '\n' := by
  have hword : isWordChar '\n' = false := by decide
  unfold plain
  split
  · exact getLast?_numberLength_ne hc
  · split
    · exact getLast?_cons_ne hc (newline_not_mem_take (runLength_le_line hword _))
    · split
      · next hmark =>
        simp only [Bool.and_eq_true] at hmark
        cases r with
        | nil => simp [hc]
        | cons d r =>
          have hd : d = '=' := by simpa [startsWith] using hmark.2
          simp [hd]
      · simp [hc]

/-- A lexeme ends with a line feed only if it is one. -/
theorem getLast?_read_ne {sign : Bool} {c : Char} {r : Text} {l : Lexeme}
    (h : read sign c r = .ok l) (hc : c ≠ '\n') :
    (c :: r.take l.extra).getLast? ≠ some '\n' := by
  cases reads_of_read h with
  | punctuation => simp [hc]
  | lineComment =>
    exact getLast?_cons_ne hc (newline_not_mem_take (runLength_le_line (by decide) r))
  | blockComment hn => simp [List.getLast?_cons, getLast?_take_blockComment hn]
  | dollar h => exact getLast?_dollar_ne h
  | atSign h => exact getLast?_atSign_ne h
  | singleQuoted hs => simp [List.getLast?_cons, getLast?_take_singleQuoted hs]
  | doubleQuoted hs => simp [List.getLast?_cons, getLast?_take_doubleQuoted hs]
  | dash => exact getLast?_dash_ne sign r
  | doubleColon => simp
  | colon => simp
  | plain => exact getLast?_plain_ne hc r

/-! ### Characters that are there -/

theorem lineLength_le_length (t : Text) : lineLength t ≤ t.length :=
  (List.takeWhile_prefix _).length_le

theorem blockCommentLength?_le {t : Text} {n : Nat} (h : blockCommentLength? t = some n) :
    n ≤ t.length := by
  fun_induction blockCommentLength? t generalizing n with
  | case1 => cases h
  | case2 r => cases h; simp
  | case3 c r _ ih =>
    obtain ⟨m, hm, rfl⟩ := Option.map_eq_some_iff.mp h
    exact Nat.succ_le_succ (ih hm)

theorem singleQuoted?_le {t v : Text} {n : Nat} (h : singleQuoted? t = some (n, v)) :
    n ≤ t.length := by
  fun_induction singleQuoted? t generalizing n v with
  | case1 => cases h
  | case3 r => cases h; simp
  | _ =>
    rename_i ih
    obtain ⟨⟨m, u⟩, hm, heq⟩ := Option.map_eq_some_iff.mp h
    cases heq
    simpa using ih hm

theorem doubleQuoted?_le {nest : List Nest} {t v : Text} {n : Nat}
    (h : doubleQuoted? nest t = some (n, v)) : n ≤ t.length := by
  fun_induction doubleQuoted? nest t generalizing n v with
  | case1 => cases h
  | case4 r => cases h; simp
  | _ =>
    rename_i ih
    obtain ⟨⟨m, u⟩, hm, heq⟩ := Option.map_eq_some_iff.mp h
    cases heq
    simpa using ih hm

theorem hereBody?_le {quote : Char} {atLineStart : Bool} {t v : Text} {n : Nat}
    (h : hereBody? quote atLineStart t = some (n, v)) : n ≤ t.length := by
  induction t generalizing atLineStart n v with
  | nil => cases h
  | cons c t ih =>
    rw [hereBody?] at h
    split at h
    · next hmark =>
      cases h
      cases t with
      | nil => simp [startsWith] at hmark
      | cons d t => simp
    · obtain ⟨⟨m, u⟩, hm, heq⟩ := Option.map_eq_some_iff.mp h
      cases heq
      exact Nat.succ_le_succ (ih hm)

theorem hereString?_le {t v : Text} {n : Nat} (h : hereString? t = some (n, v)) :
    n ≤ t.length := by
  obtain ⟨quote, line, body, m, u, rfl, -, hm, rfl, -⟩ := hereString?_eq_some h
  have := hereBody?_le hm
  simp only [List.length_cons, List.length_append]
  omega

theorem bracedLength?_le {t : Text} {n : Nat} (h : bracedLength? t = some n) :
    n ≤ t.length := by
  fun_induction bracedLength? t generalizing n with
  | case1 => cases h
  | case2 r => cases h; simp
  | _ =>
    rename_i ih
    obtain ⟨m, hm, rfl⟩ := Option.map_eq_some_iff.mp h
    simpa using ih hm

theorem numberLength_le (first : Char) (t : Text) : numberLength first t ≤ t.length :=
  Nat.le_trans (numberLength_le_line first t) (lineLength_le_length t)

theorem dollar_extra_le {r : Text} {l : Lexeme} (h : dollar r = .ok l) :
    l.extra ≤ r.length := by
  cases r with
  | nil => cases h; exact Nat.le_refl 0
  | cons c r =>
    by_cases hparen : c = '('
    · subst hparen
      cases h
      simp
    · by_cases hbrace : c = '\x7b'
      · subst hbrace
        simp only [dollar] at h
        split at h
        · next n hn =>
          cases h
          exact Nat.succ_le_succ (bracedLength?_le hn)
        · cases h
      · rw [dollar_cons hparen hbrace] at h
        split at h
        · cases h
          simp
        · split at h
          · cases h
            exact Nat.le_trans (scopedLength_le_line _) (lineLength_le_length _)
          · cases h
            simp

theorem atSign_extra_le {r : Text} {l : Lexeme} (h : atSign r = .ok l) :
    l.extra ≤ r.length := by
  unfold atSign at h
  split at h
  · cases h
    simp
  · cases h
    simp
  · split at h
    · split at h
      · next n v hn =>
        cases h
        exact hereString?_le hn
      · cases h
    · split at h
      · cases h
        exact (List.takeWhile_prefix _).length_le
      · cases h
        simp

theorem dash_extra_le (sign : Bool) (r : Text) : (dash sign r).extra ≤ r.length := by
  cases r with
  | nil => exact Nat.le_refl 0
  | cons c r =>
    have := numberLength_le c r
    simp only [dash]
    split
    · simp only [List.length_cons]
      omega
    · split
      · exact (List.takeWhile_prefix _).length_le
      · split <;> simp

theorem plain_extra_le (c : Char) (r : Text) : (plain c r).extra ≤ r.length := by
  unfold plain
  split
  · exact numberLength_le c r
  · split
    · exact (List.takeWhile_prefix _).length_le
    · split
      · next hmark =>
        cases r with
        | nil => simp [startsWith] at hmark
        | cons d r => simp
      · exact Nat.zero_le _

theorem read_extra_le {sign : Bool} {c : Char} {r : Text} {l : Lexeme}
    (h : read sign c r = .ok l) : l.extra ≤ r.length := by
  cases reads_of_read h with
  | punctuation => exact Nat.zero_le _
  | lineComment => exact (List.takeWhile_prefix _).length_le
  | blockComment hn => exact Nat.succ_le_succ (blockCommentLength?_le hn)
  | dollar h => exact dollar_extra_le h
  | atSign h => exact atSign_extra_le h
  | singleQuoted hs => exact singleQuoted?_le hs
  | doubleQuoted hs => exact doubleQuoted?_le hs
  | dash => exact dash_extra_le sign r
  | doubleColon => simp
  | colon => exact Nat.zero_le _
  | plain => exact plain_extra_le c r

/-! ### Kinds -/

/-- Whether a kind is neither that of a word nor that of a closing bracket. -/
def IsOtherKind (k : TokenKind) : Prop := k.isName = false ∧ k.isCloser = false

instance (k : TokenKind) : Decidable (IsOtherKind k) := inferInstanceAs (Decidable (_ ∧ _))

/-- Words start with a letter or an underscore, and closing brackets are punctuation. -/
theorem read_kind {sign : Bool} {c : Char} {r : Text} {l : Lexeme} (h : read sign c r = .ok l) :
    IsOtherKind l.kind ∨ (startsWord c = true ∧ l = plain c r) ∨
      (punctuation? c = some l.kind ∧ l.extra = 0) := by
  cases reads_of_read h with
  | punctuation _ hp => exact .inr (.inr ⟨hp, rfl⟩)
  | dollar h =>
    left
    rcases kind_dollar h with h | h | h <;> rw [h] <;> decide
  | atSign h =>
    left
    rcases kind_atSign h with h | h | h | h | h <;> rw [h] <;> decide
  | dash =>
    left
    rcases kind_dash sign r with ⟨h, -⟩ | h | h <;> rw [h] <;> decide
  | plain =>
    rcases kind_plain c r with ⟨-, h⟩ | ⟨hstarts, -⟩ | h
    · left
      rw [h]
      decide
    · exact .inr (.inl ⟨hstarts, rfl⟩)
    · left
      rw [h]
      decide
  | lineComment | blockComment | singleQuoted | doubleQuoted | doubleColon | colon =>
    exact .inl ⟨rfl, rfl⟩

theorem isName_punctuation? {c : Char} {k : TokenKind} (h : punctuation? c = some k) :
    k.isName = false := by
  unfold punctuation? at h
  split at h <;> cases h <;> rfl

theorem word_of_read {sign : Bool} {c : Char} {r : Text} {l : Lexeme}
    (h : read sign c r = .ok l) (hname : l.kind.isName = true) :
    startsWord c = true ∧ l = plain c r := by
  rcases read_kind h with hother | hword | ⟨hp, -⟩
  · rw [hother.1] at hname
    cases hname
  · exact hword
  · rw [isName_punctuation? hp] at hname
    cases hname

theorem isCloser_of_isName {k : TokenKind} (h : k.isName = true) : k.isCloser = false := by
  cases k <;> first | rfl | cases h

theorem closer_of_read {sign : Bool} {c : Char} {r : Text} {l : Lexeme}
    (h : read sign c r = .ok l) (hcloser : l.kind.isCloser = true) :
    punctuation? c = some l.kind ∧ l.extra = 0 := by
  rcases read_kind h with hother | ⟨hstarts, rfl⟩ | hp
  · rw [hother.2] at hcloser
    cases hcloser
  · unfold plain at hcloser
    split at hcloser
    · cases hcloser
    · have hkind := isCloser_of_isName (isName_wordKind (c :: r.takeWhile isWordChar))
      cases hkind.symm.trans hcloser
  · exact hp

/-- Only a dollar sign starts a variable. -/
theorem dollar_of_variable {sign : Bool} {c : Char} {r : Text} {l : Lexeme}
    (h : read sign c r = .ok l) (hkind : l.kind = .variable) : c = '$' ∧ dollar r = .ok l := by
  cases reads_of_read h with
  | dollar h => exact ⟨rfl, h⟩
  | punctuation _ hp =>
    have hmark := kind_punctuation? (hp.trans (congrArg some hkind))
    exact absurd hmark (by decide)
  | atSign h => rcases kind_atSign h with h | h | h | h | h <;> cases h.symm.trans hkind
  | dash => rcases kind_dash sign r with ⟨h, -⟩ | h | h <;> cases h.symm.trans hkind
  | plain => exact absurd hkind (kind_plain_ne rfl (by decide) (by decide) c r)
  | lineComment | blockComment | singleQuoted | doubleQuoted | doubleColon | colon => cases hkind

end ScriptModule.Lexeme
