/-
  ScriptModule/Proofs/BareValue.lean
  ==================================
  **Bare values.**  A value without quotes is made of numbers, words and dots without a gap
  between them.  Such tokens are the same in front of anything that does not go on with a
  word, so a text that is one value by itself is one wherever it is printed.
-/
import ScriptModule.Proofs.Excerpt

namespace ScriptModule

open Unicode

namespace Lexeme

/-! ### Runs that stop -/

theorem Stops.mono {p q : Char → Bool} (hpq : ∀ c, p c = true → q c = true) {t : Text}
    (h : Stops q t) : Stops p t := by
  cases t with
  | nil => rfl
  | cons c t =>
    have hc : q c = false := h
    change p c = false
    rw [Bool.eq_false_iff] at hc ⊢
    exact mt (hpq c) hc

theorem takeWhile_stop {p : Char → Bool} {rest : Text} (h : Stops p rest) (t : Text) :
    (t ++ rest).takeWhile p = t.takeWhile p := by
  induction t with
  | nil =>
    cases rest with
    | nil => rfl
    | cons c rest =>
      have hc : p c = false := h
      rw [List.nil_append, List.takeWhile_cons_of_neg (by simp [hc]), List.takeWhile_nil]
  | cons c t ih => rw [List.cons_append, List.takeWhile_cons, List.takeWhile_cons, ih]

theorem runLength_stop {p : Char → Bool} {rest : Text} (h : Stops p rest) (t : Text) :
    runLength p (t ++ rest) = runLength p t := by
  rw [runLength, runLength, takeWhile_stop h]

theorem isWordChar_of_isDigit {c : Char} (h : isDigit c = true) : isWordChar c = true := by
  simp [isWordChar, isNameChar, isAlphanumeric, h]

theorem isWordChar_of_startsWord {c : Char} (h : startsWord c = true) : isWordChar c = true := by
  simp only [startsWord, Bool.or_eq_true, decide_eq_true_eq] at h
  simp only [isWordChar, isNameChar, isAlphanumeric, Bool.or_eq_true, decide_eq_true_eq]
  tauto

theorem isWordChar_of_isLetter {c : Char} (h : isLetter c = true) : isWordChar c = true :=
  isWordChar_of_startsWord (by simp [startsWord, h])

theorem isWordChar_of_isHexDigit {c : Char} (h : isHexDigit c = true) :
    isWordChar c = true := by
  have hmem : c ∈ "0123456789abcdefABCDEF".toList := by
    have hrange : ∀ n < 103, isHexDigit (Char.ofNat n) = true →
        Char.ofNat n ∈ "0123456789abcdefABCDEF".toList := by decide +kernel
    have hlt : c.toNat < 103 := by
      simp only [isHexDigit, Char.isDigit, Char.le_def, Bool.or_eq_true, Bool.and_eq_true,
        decide_eq_true_eq, UInt32.le_iff_toNat_le] at h
      change c.val.toNat < 103
      have hf : 'f'.val.toNat = 102 := rfl
      have hF : 'F'.val.toNat = 70 := rfl
      have hnine : '9'.val.toNat = 57 := rfl
      omega
    have hsame := hrange c.toNat hlt
    rw [Char.ofNat_toNat] at hsame
    exact hsame h
  have hall : ("0123456789abcdefABCDEF".toList.all isWordChar) = true := by decide +kernel
  exact List.all_eq_true.mp hall c hmem

/-! ### Numbers -/

section

variable {rest : Text}

theorem fractionLength_stop (h : Stops isWordChar rest) (s : Text) :
    fractionLength (s ++ rest) = fractionLength s := by
  have hdigit : Stops isDigit rest := h.mono fun _ => isWordChar_of_isDigit
  rcases s with _ | ⟨d, s⟩
  · rw [List.nil_append]
    rcases rest with _ | ⟨c, rest⟩
    · rfl
    · have hc : c ≠ '.' := by
        rintro rfl
        cases h
      simp [fractionLength, hc]
  · by_cases hd : d = '.'
    · subst hd
      have hstarts : startsWith isDigit (s ++ rest) = startsWith isDigit s := by
        cases s with
        | nil => exact hdigit
        | cons e s => rfl
      simp only [List.cons_append, fractionLength, hstarts, runLength_stop hdigit]
    · simp [fractionLength, hd]

theorem digitsLength_stop (first : Char) (h : Stops isWordChar rest) (t : Text) :
    digitsLength first (t ++ rest) = digitsLength first t := by
  rcases digitsLength_cases first t with ⟨m, s, hm, rfl⟩ | ⟨a, s, rfl, hdigits, hs, hx, hX, hlength⟩
  · have hhex : Stops isHexDigit rest := h.mono fun _ => isWordChar_of_isHexDigit
    rw [List.cons_append, digitsLength_mark hm, digitsLength_mark hm, runLength_stop hhex]
  · have hs' : Stops isDigit (s ++ rest) := by
      cases s with
      | nil => exact h.mono fun _ => isWordChar_of_isDigit
      | cons c s => exact hs
    have hnone : ∀ m, isWordChar m = true → (∀ r, a ++ s ≠ m :: r) →
        ∀ r, a ++ (s ++ rest) ≠ m :: r := by
      intro m hm hold r heq
      rw [← List.append_assoc] at heq
      rcases hcons : a ++ s with _ | ⟨c, u⟩
      · rw [hcons, List.nil_append] at heq
        have hstop : isWordChar m = false := by
          rw [heq] at h
          exact h
        rw [hm] at hstop
        cases hstop
      · rw [hcons] at heq
        exact hold u (by rw [hcons, (List.cons.inj heq).1])
    rw [List.append_assoc, hlength, ← fractionLength_stop h s]
    exact digitsLength_append hdigits hs' (hnone 'x' (by decide) hx) (hnone 'X' (by decide) hX)

theorem take_runLength (p : Char → Bool) (t : Text) : t.take (runLength p t) = t.takeWhile p :=
  (List.prefix_iff_eq_take.mp (List.takeWhile_prefix p)).symm

theorem isWordChar_of_mem_take_fraction {c : Char} {s : Text}
    (h : c ∈ s.take (fractionLength s)) : isWordChar c = true := by
  unfold fractionLength at h
  split at h
  · next r =>
    split at h
    · rw [List.take_succ_cons, take_runLength] at h
      rcases List.mem_cons.mp h with rfl | h
      · decide
      · exact isWordChar_of_isDigit (List.mem_takeWhile_imp h)
    · cases h
  · cases h

theorem isWordChar_of_mem_take_digits {c first : Char} {t : Text}
    (h : c ∈ t.take (digitsLength first t)) : isWordChar c = true := by
  rcases digitsLength_cases first t with ⟨m, s, hm, rfl⟩ | ⟨a, s, rfl, hdigits, -, -, -, hlength⟩
  · rw [digitsLength_mark hm] at h
    split at h
    · rw [Nat.add_comm, List.take_succ_cons, take_runLength] at h
      rcases List.mem_cons.mp h with rfl | h
      · rcases hm with rfl | rfl <;> decide
      · exact isWordChar_of_isHexDigit (List.mem_takeWhile_imp h)
    · cases h
  · rw [hlength, List.take_length_add_append] at h
    rcases List.mem_append.mp h with h | h
    · exact isWordChar_of_isDigit (hdigits c h)
    · exact isWordChar_of_mem_take_fraction h

theorem isWordChar_of_mem_take_number {c first : Char} {t : Text}
    (h : c ∈ t.take (numberLength first t)) : isWordChar c = true := by
  rw [numberLength, List.take_add, take_runLength] at h
  rcases List.mem_append.mp h with h | h
  · exact isWordChar_of_mem_take_digits h
  · exact isWordChar_of_isLetter (List.mem_takeWhile_imp h)

theorem numberLength_stop (first : Char) (h : Stops isWordChar rest) (t : Text) :
    numberLength first (t ++ rest) = numberLength first t := by
  have hletter : Stops isLetter rest := h.mono fun _ => isWordChar_of_isLetter
  have hle : digitsLength first t ≤ t.length :=
    (digitsLength_le_line first t).trans (lineLength_le_length t)
  rw [numberLength, numberLength, digitsLength_stop first h, List.drop_append_of_le_length hle,
    runLength_stop hletter]

/-! ### Bare lexemes -/

/-- Behind a kind that allows no sign, a bare lexeme is a dot, a number or a word. -/
theorem bare_of_read {c : Char} {r : Text} {l : Lexeme} (h : read false c r = .ok l)
    (hbare : Script.isBare l.kind = true) :
    (c = '.' ∧ l = ⟨.dot, 0, none⟩) ∨ ((isDigit c || startsWord c) = true ∧ l = plain c r) := by
  cases reads_of_read h with
  | punctuation _ hp =>
    left
    unfold punctuation? at hp
    split at hp <;> cases hp <;> first | exact ⟨rfl, rfl⟩ | cases hbare
  | plain =>
    right
    rcases kind_plain c r with ⟨hdigit, -⟩ | ⟨hword, -⟩ | h
    · exact ⟨by simp [hdigit], rfl⟩
    · exact ⟨by simp [hword], rfl⟩
    · rw [h] at hbare
      cases hbare
  | dollar h => rcases kind_dollar h with h | h | h <;> rw [h] at hbare <;> cases hbare
  | atSign h => rcases kind_atSign h with h | h | h | h | h <;> rw [h] at hbare <;> cases hbare
  | dash =>
    rcases kind_dash false r with ⟨-, h⟩ | h | h
    · cases h
    · rw [h] at hbare
      cases hbare
    · rw [h] at hbare
      cases hbare
  | lineComment | blockComment | singleQuoted | doubleQuoted | doubleColon | colon => cases hbare

theorem plain_stop {c : Char} (hc : (isDigit c || startsWord c) = true)
    (h : Stops isWordChar rest) (t : Text) : plain c (t ++ rest) = plain c t := by
  unfold plain
  by_cases hdigit : isDigit c = true
  · rw [if_pos hdigit, if_pos hdigit, numberLength_stop c h]
  · have hword : startsWord c = true := by simpa [hdigit] using hc
    rw [if_neg hdigit, if_pos hword, if_neg hdigit, if_pos hword, takeWhile_stop h,
      runLength_stop h]

theorem isWordChar_of_mem_take_plain {c d : Char} {t : Text}
    (hc : (isDigit c || startsWord c) = true) (h : d ∈ t.take (plain c t).extra) :
    isWordChar d = true := by
  unfold plain at h
  by_cases hdigit : isDigit c = true
  · rw [if_pos hdigit] at h
    exact isWordChar_of_mem_take_number h
  · have hword : startsWord c = true := by simpa [hdigit] using hc
    rw [if_neg hdigit, if_pos hword, take_runLength] at h
    exact List.mem_takeWhile_imp h

end
end Lexeme

open Lexeme Script

/-! ### Bare pieces -/

/-- Whether a piece is a lexeme that values are made of. -/
inductive Piece.IsBare : Piece → Prop
  | intro {c : Char} {w : Text} {l : Lexeme} : Script.isBare l.kind = true → IsBare (.lexeme c w l)

theorem signMayFollow_of_isBare {k : TokenKind} (h : isBare k = true) :
    signMayFollow (some k) = false := by
  cases k <;> first | rfl | cases h

/-- A bare lexeme is the same behind and in front of anything that does not go on with it. -/
theorem Piece.Fits.bare {c : Char} {w t rest : Text} {l : Lexeme}
    (h : (Piece.lexeme c w l).Fits false (t ++ [])) (hbare : isBare l.kind = true)
    (hrest : Stops isWordChar rest) (sign : Bool) :
    (Piece.lexeme c w l).Fits sign (t ++ rest) ∧ ∀ d ∈ c :: w, isWordChar d = true := by
  obtain ⟨hgap, hread, hlen⟩ := h
  rw [List.append_nil] at hgap hread
  have hcases := bare_of_read hread hbare
  have hbacktick : c ≠ '\x60' := by
    rintro rfl
    rcases hcases with ⟨hc, -⟩ | ⟨hc, -⟩
    · exact absurd hc (by decide)
    · exact absurd hc (by decide)
  have hgap' : gapLength (c :: w ++ (t ++ rest)) = 0 := by
    rw [List.cons_append, gapLength_of_ne hbacktick] at hgap ⊢
    exact hgap
  rcases hcases with ⟨rfl, rfl⟩ | ⟨hc, rfl⟩
  · obtain rfl := List.eq_nil_of_length_eq_zero hlen
    refine ⟨⟨hgap', read_of_punctuation rfl sign _, rfl⟩, ?_⟩
    intro d hd
    obtain rfl := List.mem_singleton.mp hd
    decide
  · have hread' : read sign c (w ++ (t ++ rest)) = .ok (plain c (w ++ t)) := by
      rw [← List.append_assoc, ← plain_stop hc hrest]
      by_cases hdigit : isDigit c = true
      · rw [read_of_isDigit hdigit, plain, if_pos hdigit]
      · exact read_of_startsWord (by simpa [hdigit] using hc) sign _
    refine ⟨⟨hgap', hread', hlen⟩, List.forall_mem_cons.mpr ⟨?_, ?_⟩⟩
    · rw [Bool.or_eq_true] at hc
      rcases hc with hc | hc
      · exact isWordChar_of_isDigit hc
      · exact isWordChar_of_startsWord hc
    · intro d hd
      apply isWordChar_of_mem_take_plain (t := w ++ t) hc
      rw [← hlen, List.take_left]
      exact hd

/-- Pieces of a value without quotes. -/
structure IsBareRow (qs : List Piece) : Prop where
  ne_nil : qs ≠ []
  bare : ∀ q ∈ qs, q.IsBare
  spells : ∀ (before : Option TokenKind) {rest : Text}, Stops isWordChar rest →
    Spells before rest qs
  wordChars : ∀ c ∈ textOf qs, isWordChar c = true

theorem isBareRow_of_spells {qs : List Piece} (hne : qs ≠ []) (hbare : ∀ q ∈ qs, q.IsBare)
    (h : Spells (some .parameter) [] qs) : IsBareRow qs := by
  have hall : ∀ {before : Option TokenKind}, signMayFollow before = false → Spells before [] qs →
      (∀ (other : Option TokenKind) {rest : Text}, Stops isWordChar rest → Spells other rest qs) ∧
        ∀ c ∈ textOf qs, isWordChar c = true := by
    clear h hne
    induction qs with
    | nil => exact fun _ _ => ⟨fun _ _ _ => trivial, nofun⟩
    | cons q qs ih =>
      intro before hsign h
      rw [List.forall_mem_cons] at hbare
      obtain @⟨c, w, l, hkind⟩ := hbare.1
      have hafter : ∀ b, (Piece.lexeme c w l).after b = some l.kind := by
        intro b
        apply if_neg
        intro hcomment
        rw [hcomment] at hkind
        cases hkind
      have hmore := h.2
      rw [hafter] at hmore
      obtain ⟨hspells, hchars⟩ := ih hbare.2 (signMayFollow_of_isBare hkind) hmore
      have hfits := h.1
      rw [hsign] at hfits
      constructor
      · intro other rest hrest
        refine ⟨(hfits.bare hkind hrest _).1, ?_⟩
        exact hspells _ hrest
      · intro d hd
        rcases List.mem_append.mp hd with hd | hd
        · have hstop : Stops isWordChar [] := rfl
          exact (hfits.bare hkind hstop false).2 d hd
        · exact hchars d hd
  obtain ⟨hspells, hchars⟩ := hall rfl h
  exact ⟨hne, hbare, hspells, hchars⟩

/-! ### Values -/

theorem bareRun_cons {c : Char} {w : Text} {l : Lexeme} (hkind : isBare l.kind = true)
    (hlen : w.length = l.extra) (place : Position) (ts : List Token) :
    bareRun place.offset (l.token place c w :: ts) =
      (c :: w ++ (bareRun (place.advance (c :: w)).offset ts).1,
        (bareRun (place.advance (c :: w)).offset ts).2) := by
  have htext : (l.token place c w).text = c :: w := by
    change l.text c w = c :: w
    rw [text_eq_shown hlen, shown, if_neg]
    rintro ⟨hcomment, -⟩
    rw [hcomment] at hkind
    cases hkind
  have htaken : (isBare (l.token place c w).kind &&
      (l.token place c w).start.offset == place.offset) = true := by
    rw [token_kind, hkind]
    exact beq_self_eq_true place.offset
  rw [bareRun, if_pos htaken, token_stop hlen, htext]

theorem value?_of_isBare {t : Token} (h : isBare t.kind = true) (ts : List Token) :
    value? (t :: ts) = some (bareRun t.start.offset (t :: ts)) := by
  have hstring : (t.kind == .string) = false := by
    rw [beq_eq_false_iff_ne]
    intro hstring
    rw [hstring] at h
    cases h
  rw [value?, hstring, if_neg Bool.false_ne_true, if_pos h, bareRun, h, beq_self_eq_true,
    Bool.and_self, if_pos rfl]

/-- The tokens of a bare row are read as one run, up to a token of another kind. -/
theorem bareRun_tokensOf {qs : List Piece} (hqs : ∀ q ∈ qs, q.IsBare) {before : Option TokenKind}
    {rest : Text} (h : Spells before rest qs) (place : Position) {ts : List Token}
    (hts : ∀ t ∈ ts.head?, isBare t.kind = false) :
    bareRun place.offset (tokensOf place qs ++ ts) = (textOf qs, ts) := by
  induction qs generalizing before place with
  | nil =>
    rcases ts with _ | ⟨t, ts⟩
    · rfl
    · have hkind : isBare t.kind = false := hts t rfl
      simp [tokensOf, bareRun, hkind]
  | cons q qs ih =>
    rw [List.forall_mem_cons] at hqs
    obtain @⟨c, w, l, hkind⟩ := hqs.1
    rw [tokensOf, List.cons_append, bareRun_cons hkind h.1.2.2,
      ih hqs.2 h.2 (place.advance (c :: w))]
    rfl

theorem IsBareRow.value? {qs : List Piece} (h : IsBareRow qs) (place : Position) (ts : List Token)
    (hts : ∀ t ∈ ts.head?, isBare t.kind = false) :
    Script.value? (tokensOf place qs ++ ts) = some (textOf qs, ts) := by
  have hspells : Spells none [] qs := h.spells none rfl
  have hrun := bareRun_tokensOf h.bare hspells place hts
  rcases qs with _ | ⟨q, qs⟩
  · exact absurd rfl h.ne_nil
  · obtain @⟨c, w, l, hkind⟩ := h.bare q List.mem_cons_self
    rw [tokensOf, List.cons_append] at hrun ⊢
    rw [value?_of_isBare (t := l.token place c w) hkind]
    exact congrArg some hrun

/-- Whether a text by itself is one value without quotes. -/
def isPlain (t : Text) : Bool :=
  !t.isEmpty && (scanFrom (some .parameter) .start t).toOption.any fun s =>
    bareRun 0 s.tokens == (t, [])

/-- Tokens that are read as one run up to the end leave no gap. -/
theorem isBare_of_bareRun {before : Option TokenKind} {place : Position} {ps : List Piece}
    (h : Spells before [] ps)
    (hrun : bareRun place.offset (tokensOf place ps) = (textOf ps, [])) :
    ∀ q ∈ ps, q.IsBare := by
  induction ps generalizing before place with
  | nil => exact nofun
  | cons p ps ih =>
    cases p with
    | gap c w =>
      have hoffset := advance_offset place (c :: w)
      rw [tokensOf] at hrun
      rcases htokens : tokensOf (place.advance (c :: w)) ps with _ | ⟨t, ts⟩
      · rw [htokens] at hrun
        cases hrun
      · have hstart := @start_of_mem_tokensOf ps (place.advance (c :: w)) t
          (by rw [htokens]; exact List.mem_cons_self)
        have hlater : (isBare t.kind && t.start.offset == place.offset) = false := by
          have hne : t.start.offset ≠ place.offset := by
            rw [hoffset, List.length_cons] at hstart
            omega
          simp [hne]
        rw [htokens, bareRun, hlater] at hrun
        cases hrun
    | lexeme c w l =>
      by_cases hkind : isBare l.kind = true
      · rw [tokensOf, bareRun_cons hkind h.1.2.2] at hrun
        obtain ⟨htext, hrest⟩ := Prod.mk.inj hrun
        have hmore : bareRun (place.advance (c :: w)).offset
            (tokensOf (place.advance (c :: w)) ps) = (textOf ps, []) :=
          Prod.ext (List.append_cancel_left htext) hrest
        rw [List.forall_mem_cons]
        exact ⟨.intro hkind, ih h.2 hmore⟩
      · rw [tokensOf, bareRun, token_kind, Bool.eq_false_iff.mpr hkind] at hrun
        cases hrun

theorem exists_isBareRow {t : Text} (h : isPlain t = true) :
    ∃ qs, textOf qs = t ∧ IsBareRow qs := by
  obtain ⟨hne, hscan⟩ := (Bool.and_eq_true _ _).mp h
  obtain ⟨s, hs, hrun⟩ := toOption_any.mp hscan
  obtain ⟨qs, rfl, hspells, htokens⟩ := exists_pieces hs
  rw [htokens, beq_iff_eq] at hrun
  refine ⟨qs, rfl, isBareRow_of_spells ?_ (@isBare_of_bareRun _ .start _ hspells hrun) hspells⟩
  rintro rfl
  cases hne

end ScriptModule
