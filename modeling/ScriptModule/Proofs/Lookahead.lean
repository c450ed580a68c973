/-
  ScriptModule/Proofs/Lookahead.lean
  ==================================
  **How far a lexeme looks ahead.**  A lexeme is read from its own characters and, behind
  them, from the rest of its last line only, and no further than a closing bracket.  That
  line may also end earlier, at the end of the text or at a line feed, or go on otherwise
  behind the bracket: the lexeme stays the same.
-/
import Mathlib.Data.List.TakeWhile
import ScriptModule.Proofs.LexemeShape
import ScriptModule.Token.Scan

namespace ScriptModule

open Unicode

/-! ### The rest of a line -/

/-- Brackets that close a group. -/
def closesGroup (c : Char) : Bool := c = ')' || c = ']' || c = '\x7d'

/-- Whether `new` goes on like `old` to the end of the line or to a closing bracket, or
    ends earlier. -/
inductive Ahead : Text → Text → Prop
  | nil (old : Text) : Ahead [] old
  | newline (t old : Text) : Ahead ('\n' :: t) old
  | closer {c : Char} (t old : Text) : closesGroup c = true → Ahead (c :: t) (c :: old)
  | cons (c : Char) {t old : Text} : Ahead t old → Ahead (c :: t) (c :: old)

namespace Ahead

theorem append (w : Text) {new old : Text} (h : Ahead new old) : Ahead (w ++ new) (w ++ old) := by
  induction w with
  | nil => exact h
  | cons c w ih => exact cons c ih

/-- A text with the first line of another one. -/
theorem of_line {new w : Text} (h : new.takeWhile (· ≠ '\n') = w.takeWhile (· ≠ '\n'))
    (rest : Text) : Ahead new (w ++ rest) := by
  induction new generalizing w with
  | nil => exact nil _
  | cons c t ih =>
    by_cases hc : c = '\n'
    · subst hc
      exact newline t _
    · have hfront : (c :: t).takeWhile (· ≠ '\n') = c :: t.takeWhile (· ≠ '\n') := by simp [hc]
      rw [hfront] at h
      cases w with
      | nil => cases h
      | cons d w =>
        by_cases hd : d = '\n'
        · simp [hd] at h
        · have hrow : (d :: w).takeWhile (· ≠ '\n') = d :: w.takeWhile (· ≠ '\n') := by simp [hd]
          rw [hrow, List.cons_eq_cons] at h
          obtain ⟨rfl, hmore⟩ := h
          exact cons c (ih hmore)

/-- The next character is the same, unless the line has ended; what is behind it matters
    unless it closes a group. -/
theorem cases {new old : Text} (h : Ahead new old) :
    new = [] ∨ (∃ t, new = '\n' :: t) ∨
      ∃ c t s, c ≠ '\n' ∧ new = c :: t ∧ old = c :: s ∧ (closesGroup c = false → Ahead t s) := by
  cases h with
  | nil => exact .inl rfl
  | newline t => exact .inr (.inl ⟨t, rfl⟩)
  | @closer c t s hc =>
    refine .inr (.inr ⟨c, t, s, ?_, rfl, rfl, ?_⟩)
    · rintro rfl
      cases hc
    · intro hopen
      cases hc.symm.trans hopen
  | @cons c t s h =>
    by_cases hc : c = '\n'
    · subst hc
      exact .inr (.inl ⟨t, rfl⟩)
    · exact .inr (.inr ⟨c, t, s, hc, rfl, rfl, fun _ => h⟩)

theorem ne_cons {m : Char} {new old : Text} (h : Ahead new old) (hm : m ≠ '\n')
    (hold : ∀ r, old ≠ m :: r) (r : Text) : new ≠ m :: r := by
  intro hr
  rcases h.cases with rfl | ⟨t, rfl⟩ | ⟨c, t, s, -, rfl, rfl, -⟩
  · cases hr
  · exact hm (List.cons.inj hr).1.symm
  · exact hold s (by rw [(List.cons.inj hr).1])

end Ahead

namespace Lexeme

/-! ### Runs -/

/-- Whether a text does not start with a character of a class. -/
def Stops (p : Char → Bool) (t : Text) : Prop := startsWith p t = false

theorem Stops.ahead {p : Char → Bool} {new old : Text} (hp : p '\n' = false)
    (h : Stops p old) (ha : Ahead new old) : Stops p new := by
  rcases ha.cases with rfl | ⟨t, rfl⟩ | ⟨c, t, s, -, rfl, rfl, -⟩
  · rfl
  · exact hp
  · exact h

/-- The characters in front are the longest run exactly if they are of the class and
    the rest does not go on with it. -/
theorem runLength_append_eq {p : Char → Bool} {w t : Text} :
    runLength p (w ++ t) = w.length ↔ (∀ c ∈ w, p c = true) ∧ Stops p t := by
  induction w with
  | nil =>
    cases t with
    | nil => simp [runLength, Stops, startsWith]
    | cons c t =>
      by_cases hc : p c = true <;> simp [runLength, Stops, startsWith, hc]
  | cons c w ih =>
    by_cases hc : p c = true
    · simp only [runLength, List.cons_append, List.takeWhile_cons_of_pos hc, List.length_cons,
        Nat.add_right_cancel_iff, List.forall_mem_cons, hc, true_and]
      exact ih
    · simp [runLength, hc]

theorem takeWhile_of_runLength {p : Char → Bool} {w t : Text}
    (h : runLength p (w ++ t) = w.length) : (w ++ t).takeWhile p = w := by
  have hpre : (w ++ t).takeWhile p <+: w :=
    List.prefix_of_prefix_length_le (List.takeWhile_prefix _) (List.prefix_append ..)
      (Nat.le_of_eq h)
  exact hpre.eq_of_length h

theorem runLength_append_ahead {p : Char → Bool} {w new old : Text} (hp : p '\n' = false)
    (h : runLength p (w ++ old) = w.length) (ha : Ahead new old) :
    runLength p (w ++ new) = w.length := by
  rw [runLength_append_eq] at h ⊢
  exact ⟨h.1, h.2.ahead hp ha⟩

theorem cut_cons {c : Char} {w old r : Text} {n : Nat} (h : w ++ old = c :: r)
    (hlen : w.length = n + 1) : ∃ w', w = c :: w' ∧ w' ++ old = r ∧ w'.length = n := by
  cases w with
  | nil => simp at hlen
  | cons d w =>
    rw [List.cons_append, List.cons.injEq] at h
    exact ⟨w, by rw [h.1], h.2, by simpa using hlen⟩

/-! ### Comments -/

theorem two_le_blockCommentLength? {t : Text} {n : Nat} (h : blockCommentLength? t = some n) :
    2 ≤ n := by
  fun_induction blockCommentLength? t generalizing n with
  | case1 => cases h
  | case2 r => simp_all
  | case3 c r _ ih =>
    obtain ⟨m, hm, rfl⟩ := Option.map_eq_some_iff.mp h
    have := ih hm
    omega

theorem blockCommentLength?_append {w old : Text}
    (h : blockCommentLength? (w ++ old) = some w.length) (new : Text) :
    blockCommentLength? (w ++ new) = some w.length := by
  generalize ht : w ++ old = t at h
  fun_induction blockCommentLength? t generalizing w with
  | case1 => cases h
  | case2 r =>
    obtain ⟨w, rfl, ht, hlen⟩ := cut_cons ht (Option.some.inj h).symm
    obtain ⟨w, rfl, ht, hlen⟩ := cut_cons ht hlen
    simp [blockCommentLength?, List.eq_nil_of_length_eq_zero hlen]
  | case3 c r hmark ih =>
    obtain ⟨m, hm, hlen⟩ := Option.map_eq_some_iff.mp h
    obtain ⟨w, rfl, rfl, rfl⟩ := cut_cons ht hlen.symm
    have hlong := two_le_blockCommentLength? hm
    obtain ⟨d, w, rfl⟩ := List.exists_cons_of_length_pos (by omega : 0 < w.length)
    have hrest := ih rfl hm
    rw [List.cons_append, List.cons_append, blockCommentLength?]
    · simp_all
    · simp_all

/-! ### Strings -/

theorem singleQuoted?_ahead {w new old v : Text}
    (h : singleQuoted? (w ++ old) = some (w.length, v)) (ha : Ahead new old) :
    singleQuoted? (w ++ new) = some (w.length, v) := by
  generalize ht : w ++ old = t at h
  fun_induction singleQuoted? t generalizing w v with
  | case1 => cases h
  | case2 r ih =>
    obtain ⟨⟨n, u⟩, hn, heq⟩ := Option.map_eq_some_iff.mp h
    obtain ⟨hlen, rfl⟩ := Prod.mk.inj heq
    obtain ⟨w, rfl, ht, hlen⟩ := cut_cons ht hlen.symm
    obtain ⟨w, rfl, ht, rfl⟩ := cut_cons ht hlen
    simp [singleQuoted?, ih ht hn]
  | case3 r hnext =>
    obtain ⟨hlen, rfl⟩ := Prod.mk.inj (Option.some.inj h)
    obtain ⟨w, rfl, ht, hlen⟩ := cut_cons ht hlen.symm
    obtain rfl := List.eq_nil_of_length_eq_zero hlen
    obtain rfl : old = r := ht
    rcases ha.cases with rfl | ⟨t, rfl⟩ | ⟨c, t, s, -, rfl, rfl, -⟩
    · rfl
    · simp [singleQuoted?]
    · rw [List.cons_append, List.nil_append, singleQuoted?]
      · simp
      · simpa using hnext
  | case4 c r h1 h2 ih =>
    obtain ⟨⟨n, u⟩, hn, heq⟩ := Option.map_eq_some_iff.mp h
    obtain ⟨hlen, rfl⟩ := Prod.mk.inj heq
    obtain ⟨w, rfl, ht, rfl⟩ := cut_cons ht hlen.symm
    rw [List.cons_append, singleQuoted?]
    · simp [ih ht hn]
    · exact fun _ hc _ => h2 hc
    · exact h2

theorem one_le_doubleQuoted? {nest : List Nest} {t v : Text} {n : Nat}
    (h : doubleQuoted? nest t = some (n, v)) : 1 ≤ n := by
  unfold doubleQuoted? at h
  split at h <;> first
    | (cases h; done)
    | (cases h; exact Nat.le_refl 1)
    | (obtain ⟨m, -, hm⟩ := Option.map_eq_some_iff.mp h; cases hm; omega)

theorem doubleQuoted?_ahead {nest : List Nest} {w new old v : Text}
    (h : doubleQuoted? nest (w ++ old) = some (w.length, v)) (ha : Ahead new old) :
    doubleQuoted? nest (w ++ new) = some (w.length, v) := by
  generalize ht : w ++ old = t at h
  fun_induction doubleQuoted? nest t generalizing w v
  case case1 => cases h
  case case4 r hnext =>
    obtain ⟨hlen, rfl⟩ := Prod.mk.inj (Option.some.inj h)
    obtain ⟨w, rfl, ht, hlen⟩ := cut_cons ht hlen.symm
    obtain rfl := List.eq_nil_of_length_eq_zero hlen
    obtain rfl : old = r := ht
    rcases ha.cases with rfl | ⟨t, rfl⟩ | ⟨c, t, s, -, rfl, rfl, -⟩
    · rfl
    · simp [doubleQuoted?]
    · rw [List.cons_append, List.nil_append, doubleQuoted?]
      · simp
      · simpa using hnext
  -- every other case goes on behind one or two characters, and the next one is there
  all_goals
    rename_i ih
    obtain ⟨⟨n, u⟩, hn, heq⟩ := Option.map_eq_some_iff.mp h
    obtain ⟨hlen, rfl⟩ := Prod.mk.inj heq
    have hpos := one_le_doubleQuoted? hn
    obtain ⟨w, rfl, ht, hlen⟩ := cut_cons ht hlen.symm
    first
      | (obtain ⟨w, rfl, ht, rfl⟩ := cut_cons ht hlen
         simp [doubleQuoted?, ih ht hn])
      | (obtain rfl := hlen
         have hrest := ih ht hn
         obtain ⟨d, w, rfl⟩ := List.exists_cons_of_length_pos hpos
         simp only [List.cons_append] at ht hrest ⊢
         subst ht
         rw [doubleQuoted?]
         · rw [hrest]; rfl
         all_goals simp_all)

/-! ### Here-strings -/

theorem two_le_hereBody? {quote : Char} {atLineStart : Bool} {t v : Text} {n : Nat}
    (h : hereBody? quote atLineStart t = some (n, v)) : 2 ≤ n := by
  induction t generalizing atLineStart n v with
  | nil => cases h
  | cons c t ih =>
    rw [hereBody?] at h
    split at h
    · cases h
      exact Nat.le_refl 2
    · obtain ⟨⟨m, u⟩, hm, heq⟩ := Option.map_eq_some_iff.mp h
      cases heq
      have := ih hm
      omega

theorem hereBody?_append {quote : Char} {atLineStart : Bool} {w old v : Text}
    (h : hereBody? quote atLineStart (w ++ old) = some (w.length, v)) (new : Text) :
    hereBody? quote atLineStart (w ++ new) = some (w.length, v) := by
  induction w generalizing atLineStart v with
  | nil => exact absurd (two_le_hereBody? h) (by simp)
  | cons c w ih =>
    have hlong : 2 ≤ w.length + 1 := two_le_hereBody? h
    obtain ⟨d, w, rfl⟩ := List.exists_cons_of_length_pos (by omega : 0 < w.length)
    have hhead : ∀ t, startsWith (· = '@') (d :: w ++ t) = startsWith (· = '@') (d :: w) :=
      fun t => rfl
    rw [List.cons_append, hereBody?, hhead] at h ⊢
    by_cases hmark : (atLineStart && decide (c = quote) && startsWith (· = '@') (d :: w)) = true
    · rw [if_pos hmark] at h ⊢
      exact h
    · rw [if_neg hmark] at h ⊢
      obtain ⟨⟨m, u⟩, hm, heq⟩ := Option.map_eq_some_iff.mp h
      obtain ⟨hlen, rfl⟩ := Prod.mk.inj heq
      obtain rfl : m = (d :: w).length := Nat.add_right_cancel hlen
      rw [ih hm]
      rfl

theorem hereString?_line {quote : Char} {line body : Text} (hline : ∀ c ∈ line, c ≠ '\n') :
    hereString? (quote :: (line ++ '\n' :: body)) =
      (hereBody? quote true body).map fun (n, v) => (line.length + 2 + n, withoutLineEnd v) := by
  have hdrop : (line ++ '\n' :: body).dropWhile (· ≠ '\n') = '\n' :: body := by
    rw [List.dropWhile_append_of_pos (by simpa using hline)]
    rfl
  have hrun : runLength (· ≠ '\n') (line ++ '\n' :: body) = line.length := by
    rw [runLength_append_eq]
    exact ⟨by simpa using hline, rfl⟩
  simp only [hereString?, hdrop, hrun]

/-- A here-string is a quote, the rest of its line, and a body. -/
theorem hereString?_eq_some {t v : Text} {n : Nat} (h : hereString? t = some (n, v)) :
    ∃ quote line body m u, t = quote :: (line ++ '\n' :: body) ∧ (∀ c ∈ line, c ≠ '\n') ∧
      hereBody? quote true body = some (m, u) ∧ n = line.length + 2 + m ∧
        v = withoutLineEnd u := by
  rcases t with _ | ⟨quote, r⟩
  · cases h
  · by_cases hnl : '\n' ∈ r
    · obtain ⟨line, body, rfl, hmem⟩ := List.eq_append_cons_of_mem hnl
      have hline : ∀ c ∈ line, c ≠ '\n' := fun c hc hnew => hmem (hnew ▸ hc)
      rw [hereString?_line hline] at h
      obtain ⟨⟨m, u⟩, hm, heq⟩ := Option.map_eq_some_iff.mp h
      obtain ⟨rfl, rfl⟩ := Prod.mk.inj heq
      exact ⟨quote, line, body, m, u, rfl, hline, hm, rfl, rfl⟩
    · have hrest : r.dropWhile (· ≠ '\n') = [] := by
        rw [List.dropWhile_eq_nil_iff]
        intro c hc
        simp only [ne_eq, decide_not, Bool.not_eq_true', decide_eq_false_iff_not]
        intro hnew
        exact hnl (hnew ▸ hc)
      simp only [hereString?, hrest] at h
      cases h

theorem hereString?_shape {w old v : Text} (h : hereString? (w ++ old) = some (w.length, v)) :
    ∃ quote line b u, w = quote :: (line ++ '\n' :: b) ∧ (∀ c ∈ line, c ≠ '\n') ∧
      v = withoutLineEnd u ∧ hereBody? quote true (b ++ old) = some (b.length, u) := by
  obtain ⟨quote, line, body, m, u, ht, hline, hm, hlen, rfl⟩ := hereString?_eq_some h
  obtain ⟨b, rfl⟩ : quote :: line ++ ['\n'] <+: w := by
    have hfront : quote :: line ++ ['\n'] <+: w ++ old := ⟨body, by simp [ht]⟩
    apply List.prefix_of_prefix_length_le hfront
    · exact List.prefix_append ..
    · simp only [List.length_append, List.length_cons, List.length_nil]
      omega
  obtain rfl : b ++ old = body := by simpa using ht
  obtain rfl : m = b.length := by
    simp only [List.length_append, List.length_cons, List.length_nil] at hlen
    omega
  exact ⟨quote, line, b, u, by simp, hline, rfl, hm⟩

theorem hereString?_append {w old v : Text}
    (h : hereString? (w ++ old) = some (w.length, v)) (new : Text) :
    hereString? (w ++ new) = some (w.length, v) := by
  obtain ⟨quote, line, b, u, rfl, hline, rfl, hbody⟩ := hereString?_shape h
  rw [List.cons_append, List.append_assoc, List.cons_append, hereString?_line hline,
    hereBody?_append hbody new]
  simp only [Option.map_some, Option.some.injEq, Prod.mk.injEq, List.length_cons,
    List.length_append, and_true]
  omega

/-- Whether a here-string opens is decided by the first character that is no blank. -/
theorem opensHereString_of_mem {u : Text} {d : Char} (hd : d ∈ u)
    (hblank : (d = ' ' || d = '\t') = false) (quote : Char) (x y : Text) :
    opensHereString (quote :: (u ++ x)) = opensHereString (quote :: (u ++ y)) := by
  have hne : u.dropWhile (fun c => c = ' ' || c = '\t') ≠ [] := by
    intro hnil
    have := List.dropWhile_eq_nil_iff.mp hnil d hd
    simp only [hblank] at this
    cases this
  obtain ⟨e, r, he⟩ := List.exists_cons_of_ne_nil hne
  simp only [opensHereString, List.dropWhile_append, he, List.isEmpty_cons, List.cons_append]
  rfl

theorem opensHereString_append {w old v : Text}
    (h : hereString? (w ++ old) = some (w.length, v)) (new : Text) :
    opensHereString (w ++ new) = opensHereString (w ++ old) := by
  obtain ⟨quote, line, b, u, rfl, -, -, -⟩ := hereString?_shape h
  exact opensHereString_of_mem (d := '\n') (by simp) (by decide) quote new old

/-! ### Variables -/

theorem one_le_bracedLength? {t : Text} {n : Nat} (h : bracedLength? t = some n) : 1 ≤ n := by
  unfold bracedLength? at h
  split at h
  · cases h
  · cases h
    exact Nat.le_refl 1
  · obtain ⟨m, -, rfl⟩ := Option.map_eq_some_iff.mp h
    omega
  · obtain ⟨m, -, rfl⟩ := Option.map_eq_some_iff.mp h
    omega

theorem bracedLength?_append {w old : Text} (h : bracedLength? (w ++ old) = some w.length)
    (new : Text) : bracedLength? (w ++ new) = some w.length := by
  generalize ht : w ++ old = t at h
  fun_induction bracedLength? t generalizing w with
  | case1 => cases h
  | case2 r =>
    obtain ⟨w, rfl, ht, hlen⟩ := cut_cons ht (Option.some.inj h).symm
    simp [bracedLength?, List.eq_nil_of_length_eq_zero hlen]
  | case3 c r ih =>
    obtain ⟨m, hm, hlen⟩ := Option.map_eq_some_iff.mp h
    obtain ⟨w, rfl, ht, hlen⟩ := cut_cons ht hlen.symm
    obtain ⟨w, rfl, ht, rfl⟩ := cut_cons ht hlen
    simp [bracedLength?, ih ht hm]
  | case4 c r hclose hkeep ih =>
    obtain ⟨m, hm, hlen⟩ := Option.map_eq_some_iff.mp h
    obtain ⟨w, rfl, ht, rfl⟩ := cut_cons ht hlen.symm
    have hpos := one_le_bracedLength? hm
    have hrest := ih ht hm
    obtain ⟨d, w, rfl⟩ := List.exists_cons_of_length_pos hpos
    simp only [List.cons_append] at ht hrest ⊢
    subst ht
    rw [bracedLength?]
    · rw [hrest]; rfl
    all_goals simp_all

theorem scopedLength_pos {t : Text} (h : startsWith isNameChar t = true) :
    0 < scopedLength t := by
  cases t with
  | nil => cases h
  | cons c t =>
    have hc : isNameChar c = true := h
    simp [scopedLength, hc]

theorem scopedLength_rest {w old : Text} (h : scopedLength (w ++ old) = w.length) :
    scopedLength old = 0 := by
  induction w with
  | nil => exact h
  | cons c w ih =>
    simp only [List.cons_append, scopedLength, List.length_cons] at h
    split at h
    · exact ih (Nat.add_right_cancel h)
    · cases h

/-- A scoped name is the same in front of anything that does not go on with it. -/
theorem scopedLength_append {w new old : Text} (h : scopedLength (w ++ old) = w.length)
    (hnew : scopedLength new = 0) : scopedLength (w ++ new) = w.length := by
  induction w with
  | nil => exact hnew
  | cons c w ih =>
    simp only [List.cons_append, scopedLength, List.length_cons] at h ⊢
    split at h
    · next hgo =>
      have hlen := Nat.add_right_cancel h
      rw [if_pos, ih hlen]
      cases w with
      | nil =>
        have hstops : startsWith isNameChar old = false := by
          cases hs : startsWith isNameChar old with
          | false => rfl
          | true =>
            have := scopedLength_pos hs
            simp_all
        simp_all
      | cons d w => exact hgo
    · simp at h

theorem scopedLength_zero_ahead {new old : Text} (h : scopedLength old = 0) (ha : Ahead new old) :
    scopedLength new = 0 := by
  rcases ha.cases with rfl | ⟨t, rfl⟩ | ⟨c, t, s, -, rfl, rfl, hts⟩
  · rfl
  · simp [scopedLength, show isNameChar '\n' = false by decide]
  · simp only [scopedLength] at h ⊢
    split at h
    · cases h
    · next hstop =>
      rw [if_neg]
      intro hgo
      apply hstop
      simp only [Bool.or_eq_true, Bool.and_eq_true, decide_eq_true_eq] at hgo ⊢
      rcases hgo with hname | ⟨hcolon, hname⟩
      · exact .inl hname
      · refine .inr ⟨hcolon, ?_⟩
        cases hs : startsWith isNameChar s with
        | true => rfl
        | false =>
          subst hcolon
          have hstops : Stops isNameChar t := Stops.ahead (by decide) hs (hts (by decide))
          exact absurd hname (by rw [hstops]; simp)

/-! ### Numbers -/

/-- The length of a fraction: a dot with digits behind it. -/
def fractionLength : Text → Nat
  | '.' :: r => if startsWith isDigit r then runLength isDigit r + 1 else 0
  | _ => 0

theorem fractionLength_ahead {w new old : Text} (h : fractionLength (w ++ old) = w.length)
    (ha : Ahead new old) : fractionLength (w ++ new) = w.length := by
  have hdigit : isDigit '\n' = false := by decide
  cases w with
  | nil =>
    rcases ha.cases with rfl | ⟨t, rfl⟩ | ⟨c, t, s, -, rfl, rfl, hts⟩
    · rfl
    · rfl
    · by_cases hc : c = '.'
      · subst hc
        simp only [List.nil_append, fractionLength, List.length_nil] at h ⊢
        split at h
        · cases h
        · next hs =>
          have hstops : Stops isDigit t :=
            Stops.ahead hdigit (Bool.eq_false_iff.mpr hs) (hts (by decide))
          rw [hstops]
          rfl
      · rw [List.nil_append, fractionLength]
        · rfl
        · simpa using hc
  | cons d w =>
    by_cases hd : d = '.'
    · subst hd
      simp only [List.cons_append, fractionLength, List.length_cons] at h ⊢
      split at h
      · next hs =>
        have hrun := runLength_append_ahead hdigit (Nat.add_right_cancel h) ha
        cases w with
        | nil =>
          have hnone : Stops isDigit old :=
            (runLength_append_eq (w := [])).mp (Nat.add_right_cancel h) |>.2
          rw [List.nil_append, hnone] at hs
          cases hs
        | cons e w =>
          have hhead : startsWith isDigit (e :: w ++ new) = true := hs
          rw [if_pos hhead, hrun]
      · cases h
    · rw [List.cons_append, fractionLength] at h
      · cases h
      · simpa using hd

theorem digitsLength_append {first : Char} {a s : Text} (ha : ∀ c ∈ a, isDigit c = true)
    (hs : Stops isDigit s) (hx : ∀ r, a ++ s ≠ 'x' :: r) (hX : ∀ r, a ++ s ≠ 'X' :: r) :
    digitsLength first (a ++ s) = a.length + fractionLength s := by
  have hrun : runLength isDigit (a ++ s) = a.length := runLength_append_eq.mpr ⟨ha, hs⟩
  unfold digitsLength
  split
  · next r heq => exact absurd heq (hx r)
  · next r heq => exact absurd heq (hX r)
  · simp only [hrun, List.drop_left]
    split
    · simp only [fractionLength]
      split <;> omega
    · next hdot =>
      rw [fractionLength]
      · rfl
      · exact hdot

theorem digitsLength_mark {first m : Char} (hm : m = 'x' ∨ m = 'X') (r : Text) :
    digitsLength first (m :: r) = if first = '0' then 1 + runLength isHexDigit r else 0 := by
  rcases hm with rfl | rfl <;> rfl

theorem exists_run (p : Char → Bool) (t : Text) :
    ∃ a s, t = a ++ s ∧ (∀ c ∈ a, p c = true) ∧ Stops p s := by
  induction t with
  | nil => exact ⟨[], [], rfl, List.forall_mem_nil _, rfl⟩
  | cons c t ih =>
    by_cases hc : p c = true
    · obtain ⟨a, s, rfl, ha, hs⟩ := ih
      exact ⟨c :: a, s, rfl, List.forall_mem_cons.mpr ⟨hc, ha⟩, hs⟩
    · exact ⟨[], c :: t, rfl, List.forall_mem_nil _, Bool.eq_false_iff.mpr hc⟩

/-- A number goes on with a mark and hexadecimal digits, or with digits and a fraction. -/
theorem digitsLength_cases (first : Char) (t : Text) :
    (∃ m s, (m = 'x' ∨ m = 'X') ∧ t = m :: s) ∨
      ∃ a s, t = a ++ s ∧ (∀ c ∈ a, isDigit c = true) ∧ Stops isDigit s ∧
        (∀ r, t ≠ 'x' :: r) ∧ (∀ r, t ≠ 'X' :: r) ∧
        digitsLength first t = a.length + fractionLength s := by
  by_cases hmark : ∃ m s, (m = 'x' ∨ m = 'X') ∧ t = m :: s
  · exact .inl hmark
  · right
    have hx : ∀ r, t ≠ 'x' :: r := fun r heq => hmark ⟨'x', r, .inl rfl, heq⟩
    have hX : ∀ r, t ≠ 'X' :: r := fun r heq => hmark ⟨'X', r, .inr rfl, heq⟩
    obtain ⟨a, s, rfl, hdigits, hs⟩ := exists_run isDigit t
    exact ⟨a, s, rfl, hdigits, hs, hx, hX, digitsLength_append hdigits hs hx hX⟩

theorem digitsLength_ahead_mark {first m : Char} {r w new old : Text} (hm : m = 'x' ∨ m = 'X')
    (hr : w ++ old = m :: r) (h : digitsLength first (w ++ old) = w.length)
    (ha : Ahead new old) : digitsLength first (w ++ new) = w.length := by
  have hdigit : isDigit '\n' = false := by decide
  have hhex : isHexDigit '\n' = false := by decide
  rw [hr, digitsLength_mark hm] at h
  cases w with
  | nil =>
    have hzero : first ≠ '0' := by
      rintro rfl
      simp at h
    obtain rfl : old = m :: r := hr
    rcases ha.cases with rfl | ⟨t, rfl⟩ | ⟨c, t, s, -, rfl, heq, -⟩
    · rfl
    · exact digitsLength_append (a := []) (by simp) hdigit (by simp) (by simp)
    · obtain ⟨rfl, -⟩ := List.cons.inj heq
      rw [List.nil_append, digitsLength_mark hm, if_neg hzero]
      rfl
  | cons c w =>
    obtain ⟨rfl, rfl⟩ := List.cons.inj hr
    rw [List.cons_append, digitsLength_mark hm]
    split at h
    · next hzero =>
      rw [List.length_cons, Nat.add_comm] at h
      rw [if_pos hzero, runLength_append_ahead hhex (Nat.add_right_cancel h) ha, Nat.add_comm]
      rfl
    · cases h

theorem eq_cons_of_ahead {m : Char} {r w new old : Text} (hm : m ≠ '\n') (ha : Ahead new old)
    (hr : w ++ new = m :: r) : ∃ r', w ++ old = m :: r' := by
  cases w with
  | nil =>
    obtain rfl : new = m :: r := hr
    rcases ha.cases with heq | ⟨t, heq⟩ | ⟨c, t, s, -, heq, rfl, -⟩
    · cases heq
    · exact absurd (List.cons.inj heq).1 hm
    · obtain ⟨rfl, -⟩ := List.cons.inj heq
      exact ⟨s, rfl⟩
  | cons c w =>
    obtain ⟨rfl, -⟩ := List.cons.inj hr
    exact ⟨w ++ old, rfl⟩

theorem digitsLength_ahead {first : Char} {w new old : Text}
    (h : digitsLength first (w ++ old) = w.length) (ha : Ahead new old) :
    digitsLength first (w ++ new) = w.length := by
  rcases digitsLength_cases first (w ++ old) with
    ⟨m, r, hm, hr⟩ | ⟨a, s, hsplit, hdigits, hs, hx, hX, hlength⟩
  · exact digitsLength_ahead_mark hm hr h ha
  · rw [hlength] at h
    -- the digits in front lie within the characters taken
    obtain ⟨b, rfl, rfl⟩ : ∃ b, w = a ++ b ∧ s = b ++ old := by
      rcases List.append_eq_append_iff.mp hsplit with ⟨b, rfl, rfl⟩ | hwithin
      · rw [List.length_append] at h
        obtain rfl := List.eq_nil_of_length_eq_zero (by omega : b.length = 0)
        exact ⟨[], by simp, rfl⟩
      · exact hwithin
    rw [List.length_append, Nat.add_left_cancel_iff] at h
    have hnone : ∀ m, m ≠ '\n' → (∀ r, (a ++ b) ++ old ≠ m :: r) →
        ∀ r, a ++ (b ++ new) ≠ m :: r := by
      intro m hm hold r hr
      rw [← List.append_assoc] at hr
      obtain ⟨r', hr'⟩ := eq_cons_of_ahead hm ha hr
      exact hold r' hr'
    have hdigit : isDigit '\n' = false := by decide
    rw [List.append_assoc, digitsLength_append hdigits (hs.ahead hdigit (ha.append b))
      (hnone 'x' (by decide) hx) (hnone 'X' (by decide) hX), fractionLength_ahead h ha,
      List.length_append]

theorem numberLength_ahead {first : Char} {w new old : Text}
    (h : numberLength first (w ++ old) = w.length) (ha : Ahead new old) :
    numberLength first (w ++ new) = w.length := by
  have hletter : isLetter '\n' = false := by decide
  obtain ⟨a, b, rfl, hlen⟩ : ∃ a b, w = a ++ b ∧ a.length = digitsLength first (w ++ old) := by
    refine ⟨w.take (digitsLength first (w ++ old)), w.drop (digitsLength first (w ++ old)),
      (List.take_append_drop _ _).symm, ?_⟩
    rw [List.length_take]
    simp only [numberLength] at h
    omega
  rw [List.append_assoc] at hlen h ⊢
  have hdigits := digitsLength_ahead hlen.symm (Ahead.append b ha)
  simp only [numberLength, hdigits, ← hlen, List.drop_left, List.length_append,
    Nat.add_left_cancel_iff] at h ⊢
  exact runLength_append_ahead hletter h ha

/-! ### Marks -/

theorem isNameChar_newline : isNameChar '\n' = false := by decide

theorem isParameterChar_of_startsWord {c : Char} (h : startsWord c = true) :
    isParameterChar c = true := by
  simp only [startsWord, Bool.or_eq_true] at h
  simp only [isParameterChar, isNameChar, isAlphanumeric, Bool.or_eq_true]
  rcases h with h | h
  · exact .inl (.inl (.inl (.inl h)))
  · exact .inl (.inr h)

theorem dollar_cons {c : Char} (hparen : c ≠ '(') (hbrace : c ≠ '\x7b') (r : Text) :
    dollar (c :: r) =
      if c = '$' || c = '?' || c = '^' || (c = '_' && !startsWith isNameChar r) then
        .ok ⟨.variable, 1, none⟩
      else if isNameChar c then .ok ⟨.variable, scopedLength (c :: r), none⟩
      else .ok ⟨.operator, 0, none⟩ := by
  rw [dollar]
  · exact hparen
  · exact hbrace

/-- Characters behind which a dollar sign stands for itself. -/
def EndsDollar (c : Char) : Prop :=
  c ≠ '(' ∧ c ≠ '\x7b' ∧ c ≠ '$' ∧ c ≠ '?' ∧ c ≠ '^' ∧ isNameChar c = false

theorem dollar_of_stop {c : Char} (h : EndsDollar c) (r : Text) :
    dollar (c :: r) = .ok ⟨.operator, 0, none⟩ := by
  obtain ⟨hparen, hbrace, hdollar, hask, hcaret, hname⟩ := h
  have hunder : c ≠ '_' := by
    rintro rfl
    cases hname
  simp [dollar_cons hparen hbrace, hdollar, hask, hcaret, hunder, hname]

theorem endsDollar_of_zero {c : Char} {r : Text} {l : Lexeme}
    (h : dollar (c :: r) = .ok l) (hlen : l.extra = 0) : EndsDollar c := by
  by_cases hparen : c = '('
  · subst hparen
    cases h
    cases hlen
  · by_cases hbrace : c = '\x7b'
    · subst hbrace
      simp only [dollar] at h
      split at h <;> cases h
      cases hlen
    · rw [dollar_cons hparen hbrace] at h
      split at h
      · cases h
        cases hlen
      · next hone =>
        split at h
        · next hname =>
          cases h
          have := scopedLength_pos (t := c :: r) hname
          simp only at hlen
          omega
        · next hname =>
          simp only [Bool.or_eq_true, decide_eq_true_eq, not_or] at hone
          exact ⟨hparen, hbrace, hone.1.1.1, hone.1.1.2, hone.1.2, Bool.eq_false_iff.mpr hname⟩

theorem dollar_nil_ahead {new old : Text} {l : Lexeme} (h : dollar old = .ok l)
    (hlen : l.extra = 0) (ha : Ahead new old) : dollar new = .ok l := by
  have hl : l = ⟨.operator, 0, none⟩ := by
    cases old with
    | nil => cases h; rfl
    | cons c r =>
      rw [dollar_of_stop (endsDollar_of_zero h hlen)] at h
      cases h
      rfl
  rw [hl]
  rcases ha.cases with rfl | ⟨t, rfl⟩ | ⟨c, t, s, -, rfl, rfl, -⟩
  · rfl
  · exact dollar_of_stop (by simp [EndsDollar, isNameChar_newline]) t
  · exact dollar_of_stop (endsDollar_of_zero h hlen) t

/-- A variable with more than its dollar sign is the same in front of anything that does not
    go on with its name. -/
theorem dollar_append {c : Char} {w new old : Text} {l : Lexeme}
    (h : dollar (c :: w ++ old) = .ok l) (hlen : (c :: w).length = l.extra)
    (hname : Stops isNameChar old → Stops isNameChar new)
    (hscoped : scopedLength old = 0 → scopedLength new = 0) :
    dollar (c :: w ++ new) = .ok l := by
  by_cases hparen : c = '('
  · subst hparen
    exact h
  · by_cases hbrace : c = '\x7b'
    · subst hbrace
      simp only [List.cons_append, dollar] at h ⊢
      split at h
      · next n hn =>
        cases h
        obtain rfl : w.length = n := Nat.add_right_cancel hlen
        rw [bracedLength?_append hn]
      · cases h
    · rw [List.cons_append, dollar_cons hparen hbrace] at h ⊢
      split at h
      · next hone =>
        cases h
        obtain rfl : w = [] := List.eq_nil_of_length_eq_zero (Nat.add_right_cancel hlen)
        rw [if_pos]
        simp only [List.nil_append, Bool.or_eq_true, Bool.and_eq_true, Bool.not_eq_true']
          at hone ⊢
        exact hone.imp id fun hunder => ⟨hunder.1, hname hunder.2⟩
      · next hone =>
        split at h
        · next hstart =>
          cases h
          have hwhole : scopedLength (c :: w ++ old) = (c :: w).length := hlen.symm
          have hscope : scopedLength (c :: w ++ new) = (c :: w).length :=
            scopedLength_append hwhole (hscoped (scopedLength_rest hwhole))
          rw [if_neg, if_pos hstart, ← List.cons_append, hscope, hlen]
          simp only [Bool.or_eq_true, Bool.and_eq_true, Bool.not_eq_true', not_or] at hone ⊢
          refine ⟨hone.1, ?_⟩
          rintro ⟨hunder, hstop⟩
          apply hone.2
          refine ⟨hunder, ?_⟩
          cases w with
          | nil =>
            cases hs : startsWith isNameChar old with
            | false => exact hs
            | true =>
              have := scopedLength_pos hs
              simp [scopedLength, hstart] at hlen
              omega
          | cons d w => exact hstop
        · cases h
          cases hlen

theorem dollar_ahead {w new old : Text} {l : Lexeme} (h : dollar (w ++ old) = .ok l)
    (hlen : w.length = l.extra) (ha : Ahead new old) : dollar (w ++ new) = .ok l := by
  cases w with
  | nil => exact dollar_nil_ahead h hlen.symm ha
  | cons c w =>
    apply dollar_append h hlen
    · intro hstop
      exact Stops.ahead isNameChar_newline hstop ha
    · intro hzero
      exact scopedLength_zero_ahead hzero ha

theorem atSign_of_ne {t : Text} (hparen : ∀ r, t ≠ '(' :: r) (hbrace : ∀ r, t ≠ '\x7b' :: r) :
    atSign t =
      if opensHereString t then
        match hereString? t with
        | some (n, v) => .ok ⟨.string, n, some v⟩
        | none => .error .unterminatedHereString
      else if startsWith isNameChar t then .ok ⟨.splat, runLength isNameChar t, none⟩
      else .ok ⟨.operator, 0, none⟩ := by
  unfold atSign
  split
  · next r => exact absurd rfl (hparen r)
  · next r => exact absurd rfl (hbrace r)
  · rfl

theorem runLength_pos {p : Char → Bool} {t : Text} (h : startsWith p t = true) :
    0 < runLength p t := by
  cases t with
  | nil => cases h
  | cons c t =>
    have hc : p c = true := h
    simp [runLength, hc]

theorem atSign_nil_ahead {new old : Text} {l : Lexeme} (h : atSign old = .ok l)
    (hlen : l.extra = 0) (ha : Ahead new old)
    (hopen : opensHereString new = true → opensHereString old = true) :
    atSign new = .ok l := by
  have hparen : ∀ r, old ≠ '(' :: r := by
    rintro r rfl
    cases h
    cases hlen
  have hbrace : ∀ r, old ≠ '\x7b' :: r := by
    rintro r rfl
    cases h
    cases hlen
  rw [atSign_of_ne hparen hbrace] at h
  split at h
  · split at h
    · next n v hn =>
      cases h
      obtain rfl : n = 0 := hlen
      have hpos : 0 < ([] : Text).length := by
        obtain ⟨quote, line, b, u, hw, -, -, -⟩ := hereString?_shape (w := []) hn
        cases hw
      cases hpos
    · cases h
  · next hclosed =>
    split at h
    · next hname =>
      cases h
      have := runLength_pos hname
      simp only at hlen
      omega
    · next hname =>
      have hstop : Stops isNameChar new :=
        Stops.ahead isNameChar_newline (Bool.eq_false_iff.mpr hname) ha
      rw [atSign_of_ne (ha.ne_cons (by decide) hparen) (ha.ne_cons (by decide) hbrace),
        if_neg (fun hnew => hclosed (hopen hnew)), if_neg (by rw [hstop]; simp)]
      exact h

theorem atSign_ahead {w new old : Text} {l : Lexeme} (h : atSign (w ++ old) = .ok l)
    (hlen : w.length = l.extra) (ha : Ahead new old)
    (hopen : opensHereString new = true → opensHereString old = true) :
    atSign (w ++ new) = .ok l := by
  cases w with
  | nil => exact atSign_nil_ahead h hlen.symm ha hopen
  | cons c w =>
    by_cases hparen : c = '('
    · subst hparen
      exact h
    · by_cases hbrace : c = '\x7b'
      · subst hbrace
        exact h
      · have hshape : ∀ t, atSign (c :: w ++ t) = _ := fun t =>
          atSign_of_ne (t := c :: w ++ t) (by simp [hparen]) (by simp [hbrace])
        rw [hshape] at h ⊢
        split at h
        · next hmark =>
          split at h
          · next n v hn =>
            cases h
            obtain rfl : (c :: w).length = n := hlen
            rw [if_pos (by rw [opensHereString_append hn, hmark]), hereString?_append hn new]
          · cases h
        · split at h
          · next hname =>
            cases h
            have hrun := runLength_append_ahead isNameChar_newline hlen.symm ha
            have hquote : opensHereString (c :: w ++ new) = false := by
              have hc : c ≠ '\'' ∧ c ≠ '"' := by
                constructor <;>
                · rintro rfl
                  exact absurd hname (by simp [startsWith]; decide)
              simp [opensHereString, hc.1, hc.2]
            have hhead : startsWith isNameChar (c :: w ++ new) = true := hname
            rw [hquote, if_neg Bool.false_ne_true, if_pos hhead, hrun, hlen]
          · cases h
            cases hlen

/-- Characters behind which a dash stands for itself. -/
def EndsDash (sign : Bool) (c : Char) : Prop :=
  (isDigit c && sign) = false ∧ startsWord c = false ∧ c ≠ '=' ∧ c ≠ '-'

theorem dash_of_ends {sign : Bool} {c : Char} (h : EndsDash sign c) (r : Text) :
    dash sign (c :: r) = ⟨.operator, 0, none⟩ := by
  obtain ⟨hdigit, hword, hequals, hdash⟩ := h
  simp only [dash, hdigit, hword, hequals, hdash]
  rfl

theorem endsDash_of_zero {sign : Bool} {c : Char} {r : Text}
    (h : (dash sign (c :: r)).extra = 0) : EndsDash sign c := by
  simp only [dash] at h
  split at h
  · simp only at h
    omega
  · next hdigit =>
    split at h
    · next hword =>
      have := runLength_pos (t := c :: r) (p := isParameterChar)
        (isParameterChar_of_startsWord hword)
      simp only at h
      omega
    · next hword =>
      split at h
      · cases h
      · next hmark =>
        simp only [Bool.or_eq_true, decide_eq_true_eq, not_or] at hmark
        exact ⟨Bool.eq_false_iff.mpr hdigit, Bool.eq_false_iff.mpr hword, hmark.1, hmark.2⟩

theorem dash_ahead {sign : Bool} {w new old : Text}
    (hlen : w.length = (dash sign (w ++ old)).extra) (ha : Ahead new old) :
    dash sign (w ++ new) = dash sign (w ++ old) := by
  have hparameter : isParameterChar '\n' = false := by decide
  cases w with
  | nil =>
    have hold : dash sign old = ⟨.operator, 0, none⟩ := by
      cases old with
      | nil => rfl
      | cons c r => exact dash_of_ends (endsDash_of_zero hlen.symm) r
    rw [List.nil_append, List.nil_append, hold]
    rcases ha.cases with rfl | ⟨t, rfl⟩ | ⟨c, t, s, -, rfl, rfl, -⟩
    · rfl
    · have hends : EndsDash sign '\n' := by
        refine ⟨?_, by decide, by decide, by decide⟩
        rw [show isDigit '\n' = false by decide, Bool.false_and]
      exact dash_of_ends hends t
    · exact dash_of_ends (endsDash_of_zero hlen.symm) t
  | cons c w =>
    simp only [List.cons_append, dash] at hlen ⊢
    split at hlen
    · next hnumber =>
      simp only [List.length_cons, Nat.add_comm w.length 1, Nat.add_left_cancel_iff] at hlen
      rw [if_pos hnumber, if_pos hnumber, numberLength_ahead hlen.symm ha, hlen]
    · next hnumber =>
      rw [if_neg hnumber, if_neg hnumber]
      split at hlen
      · next hword =>
        have hrun := runLength_append_ahead hparameter (w := c :: w) hlen.symm ha
        rw [if_pos hword, if_pos hword, ← List.cons_append, hrun, hlen]
      · next hword => rw [if_neg hword, if_neg hword]

theorem plain_ahead {c : Char} {w new old : Text}
    (hlen : w.length = (plain c (w ++ old)).extra) (ha : Ahead new old) :
    plain c (w ++ new) = plain c (w ++ old) := by
  have hwordChar : isWordChar '\n' = false := by decide
  unfold plain at hlen ⊢
  by_cases hnumber : isDigit c = true
  · simp only [hnumber, if_true] at hlen ⊢
    rw [numberLength_ahead hlen.symm ha, hlen]
  · rw [if_neg hnumber] at hlen
    rw [if_neg hnumber, if_neg hnumber]
    by_cases hword : startsWord c = true
    · rw [if_pos hword] at hlen
      have hrun := runLength_append_ahead hwordChar hlen.symm ha
      rw [if_pos hword, if_pos hword, hrun, takeWhile_of_runLength hrun,
        takeWhile_of_runLength hlen.symm]
      simp only at hlen
      rw [← hlen]
    · rw [if_neg hword] at hlen
      rw [if_neg hword, if_neg hword]
      cases w with
      | nil =>
        split at hlen
        · cases hlen
        · next hmark =>
          rw [if_neg, if_neg hmark]
          intro hnew
          apply hmark
          simp only [Bool.and_eq_true] at hnew ⊢
          refine ⟨hnew.1, ?_⟩
          cases hold : startsWith (· = '=') old with
          | true => exact hold
          | false =>
            have hstop : Stops (· = '=') new := Stops.ahead (by decide) hold ha
            rw [List.nil_append, hstop] at hnew
            cases hnew.2
      | cons d w => rfl

/-! ### All lexemes -/

theorem read_of_startsWord {c : Char} (h : startsWord c = true) (sign : Bool) (r : Text) :
    read sign c r = .ok (plain c r) :=
  (Reads.plain (startsPlain_of (by decide +kernel) h r)).read_eq

/-- A lexeme is the same if the line behind it goes on as before or ends earlier. -/
theorem read_ahead {sign : Bool} {c : Char} {w new old : Text} {l : Lexeme}
    (h : read sign c (w ++ old) = .ok l) (hlen : w.length = l.extra) (ha : Ahead new old)
    (hopen : c = '@' → opensHereString new = true → opensHereString old = true) :
    read sign c (w ++ new) = .ok l := by
  apply Reads.read_eq
  have hreads := reads_of_read h
  clear h
  generalize hold : w ++ old = r at hreads
  cases hreads with
  | punctuation _ hp => exact .punctuation _ hp
  | lineComment =>
    subst hold
    have hnew : lineCommentLength (w ++ new) = lineCommentLength (w ++ old) :=
      (runLength_append_ahead (by decide) hlen.symm ha).trans hlen
    rw [← hnew]
    exact .lineComment _
  | blockComment hn =>
    obtain ⟨w, rfl, rfl, rfl⟩ := cut_cons hold hlen
    exact .blockComment (blockCommentLength?_append hn new)
  | dollar h => exact .dollar (dollar_ahead (hold ▸ h) hlen ha)
  | atSign h => exact .atSign (atSign_ahead (hold ▸ h) hlen ha (hopen rfl))
  | singleQuoted hs =>
    obtain rfl := hlen
    exact .singleQuoted (singleQuoted?_ahead (hold ▸ hs) ha)
  | doubleQuoted hs =>
    obtain rfl := hlen
    exact .doubleQuoted (doubleQuoted?_ahead (hold ▸ hs) ha)
  | dash =>
    subst hold
    rw [← dash_ahead hlen ha]
    exact .dash _
  | doubleColon =>
    obtain ⟨w, rfl, -, -⟩ := cut_cons hold hlen
    exact .doubleColon _
  | colon hcolon =>
    obtain rfl := List.eq_nil_of_length_eq_zero hlen
    obtain rfl : old = r := hold
    exact .colon (ha.ne_cons (by decide) hcolon)
  | plain hplain =>
    subst hold
    rw [← plain_ahead hlen ha]
    exact .plain ⟨hplain.mark, hplain.other, fun hc =>
      (ha.append w).ne_cons (by decide) (hplain.angle hc)⟩

/-- Only a dash is read with regard to what stands in front of it. -/
theorem read_sign {c : Char} (hc : c ≠ '-') (a b : Bool) (r : Text) :
    read a c r = read b c r := by
  rcases hp : punctuation? c with _ | k
  · simp only [read, hp]
    split <;> first | rfl | exact absurd rfl hc
  · rw [read_of_punctuation hp, read_of_punctuation hp]

end Lexeme
end ScriptModule
