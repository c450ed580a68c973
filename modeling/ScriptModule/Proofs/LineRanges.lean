/-
  ScriptModule/Proofs/LineRanges.lean
  ===================================
  **Ranges of lines.**  The lines of the directives are cut out as ranges that are sorted,
  joined and cut out one after the other.  Joined ranges cover what the ranges cover and
  stand apart, so cutting them out leaves the characters that no directive has on its lines.
-/
import ScriptModule.Proofs.Grammar
import ScriptModule.Proofs.LexemeEnd
import ScriptModule.Proofs.LineCut
import ScriptModule.Proofs.Tiling
import ScriptModule.Script.EntryPoint

namespace ScriptModule.Script

open Lexeme

/-! ### Sorted ranges -/

/-- Whether an offset lies in one of the ranges. -/
def inSomeRange (rs : List (Nat × Nat)) (o : Nat) : Bool :=
  rs.any fun r => r.1 ≤ o && o < r.2

theorem inSomeRange_iff {rs : List (Nat × Nat)} {o : Nat} :
    inSomeRange rs o = true ↔ ∃ r ∈ rs, r.1 ≤ o ∧ o < r.2 := by
  simp [inSomeRange]

section

variable {r s : Nat × Nat} {rs : List (Nat × Nat)} {pos o n : Nat}

theorem insertRange_perm (r : Nat × Nat) (rs : List (Nat × Nat)) :
    (insertRange r rs).Perm (r :: rs) := by
  induction rs with
  | nil => exact .refl _
  | cons s rs ih =>
    rw [insertRange]
    split
    · exact (ih.cons s).trans (.swap r s rs)
    · exact .refl _

theorem sortRanges_perm (rs : List (Nat × Nat)) : (sortRanges rs).Perm rs := by
  induction rs with
  | nil => exact .refl _
  | cons r rs ih => exact (insertRange_perm r (sortRanges rs)).trans (ih.cons r)

theorem pairwise_insertRange (h : rs.Pairwise fun a b => a.1 ≤ b.1) (r : Nat × Nat) :
    (insertRange r rs).Pairwise fun a b => a.1 ≤ b.1 := by
  induction rs with
  | nil => exact List.pairwise_singleton _ r
  | cons s rs ih =>
    obtain ⟨hs, hrest⟩ := List.pairwise_cons.mp h
    rw [insertRange]
    split
    · refine List.pairwise_cons.mpr ⟨?_, ih hrest⟩
      intro a ha
      rcases List.mem_cons.mp ((insertRange_perm r rs).mem_iff.mp ha) with rfl | ha
      · omega
      · exact hs a ha
    · refine List.pairwise_cons.mpr ⟨?_, h⟩
      intro a ha
      rcases List.mem_cons.mp ha with rfl | ha
      · omega
      · have := hs a ha
        omega

theorem pairwise_sortRanges (rs : List (Nat × Nat)) :
    (sortRanges rs).Pairwise fun a b => a.1 ≤ b.1 := by
  induction rs with
  | nil => exact .nil
  | cons r rs ih => exact pairwise_insertRange ih r

/-! ### Joined ranges -/

/-- Whether ranges behind an offset are in order and do not overlap. -/
def Apart (pos : Nat) : List (Nat × Nat) → Prop
  | [] => True
  | r :: rs => pos ≤ r.1 ∧ r.1 ≤ r.2 ∧ Apart r.2 rs

theorem Apart.le (h : Apart pos rs) : ∀ r ∈ rs, pos ≤ r.1 := by
  induction rs generalizing pos with
  | nil => exact List.forall_mem_nil _
  | cons s rs ih =>
    obtain ⟨hpos, hproper, hrest⟩ := h
    refine List.forall_mem_cons.mpr ⟨hpos, ?_⟩
    intro r hr
    have := ih hrest r hr
    omega

/-- What two ranges are joined to stands where the first one stood. -/
theorem pairwise_join (h : (r :: s :: rs).Pairwise fun a b => a.1 ≤ b.1) (stop : Nat) :
    ((r.1, stop) :: rs).Pairwise fun a b => a.1 ≤ b.1 := by
  obtain ⟨hr, hmore⟩ := List.pairwise_cons.mp h
  exact List.pairwise_cons.mpr ⟨fun a ha => hr a (List.mem_cons_of_mem _ ha), hmore.of_cons⟩

theorem apart_joinRanges (hsorted : (r :: rs).Pairwise fun a b => a.1 ≤ b.1)
    (hproper : ∀ s ∈ r :: rs, s.1 ≤ s.2) (hpos : pos ≤ r.1) : Apart pos (joinRanges r rs) := by
  induction rs generalizing r pos with
  | nil => exact ⟨hpos, hproper r List.mem_cons_self, trivial⟩
  | cons s rs ih =>
    rw [List.forall_mem_cons, List.forall_mem_cons] at hproper
    obtain ⟨hr, hs, hrest⟩ := hproper
    rw [joinRanges]
    split
    · exact ih (pairwise_join hsorted _)
        (List.forall_mem_cons.mpr ⟨Nat.le_trans hr (Nat.le_max_right _ _), hrest⟩) hpos
    · next hgap =>
      exact ⟨hpos, hr, ih hsorted.of_cons (List.forall_mem_cons.mpr ⟨hs, hrest⟩) (by omega)⟩

/-- Joining ranges neither adds an offset nor loses one. -/
theorem inSomeRange_joinRanges (hsorted : (r :: rs).Pairwise fun a b => a.1 ≤ b.1) (o : Nat) :
    inSomeRange (joinRanges r rs) o = inSomeRange (r :: rs) o := by
  induction rs generalizing r with
  | nil => rfl
  | cons s rs ih =>
    have hrs : r.1 ≤ s.1 := List.rel_of_pairwise_cons hsorted List.mem_cons_self
    rw [joinRanges]
    split
    · rw [ih (pairwise_join hsorted _), Bool.eq_iff_iff]
      simp only [inSomeRange, List.any_cons, Bool.or_eq_true, Bool.and_eq_true,
        decide_eq_true_eq, ← or_assoc]
      apply or_congr_left
      omega
    · have hrest := ih hsorted.of_cons
      simp only [inSomeRange, List.any_cons] at hrest ⊢
      rw [hrest]

theorem stop_le_joinRanges (h : ∀ s ∈ r :: rs, s.2 ≤ n) : ∀ s ∈ joinRanges r rs, s.2 ≤ n := by
  induction rs generalizing r with
  | nil => exact h
  | cons s rs ih =>
    rw [List.forall_mem_cons, List.forall_mem_cons] at h
    obtain ⟨hr, hs, hrest⟩ := h
    rw [joinRanges]
    split
    · exact ih (List.forall_mem_cons.mpr ⟨Nat.max_le.mpr ⟨hs, hr⟩, hrest⟩)
    · exact List.forall_mem_cons.mpr ⟨hr, ih (List.forall_mem_cons.mpr ⟨hs, hrest⟩)⟩

theorem inSomeRange_mergeRanges (rs : List (Nat × Nat)) (o : Nat) :
    inSomeRange (mergeRanges rs) o = inSomeRange rs o := by
  have hsame : inSomeRange (sortRanges rs) o = inSomeRange rs o := by
    rw [Bool.eq_iff_iff, inSomeRange_iff, inSomeRange_iff]
    simp only [(sortRanges_perm rs).mem_iff]
  rw [mergeRanges, ← hsame]
  have hsorted := pairwise_sortRanges rs
  rcases hsort : sortRanges rs with _ | ⟨r, more⟩
  · rfl
  · rw [hsort] at hsorted
    exact inSomeRange_joinRanges hsorted o

/-- Merged ranges stand apart, within the bounds of the ranges that they are made of. -/
theorem apart_mergeRanges (h : ∀ r ∈ rs, r.1 ≤ r.2 ∧ r.2 ≤ n) :
    Apart 0 (mergeRanges rs) ∧ ∀ r ∈ mergeRanges rs, r.2 ≤ n := by
  have hsorted := pairwise_sortRanges rs
  have hall : ∀ r ∈ sortRanges rs, r.1 ≤ r.2 ∧ r.2 ≤ n :=
    fun r hr => h r ((sortRanges_perm rs).mem_iff.mp hr)
  rw [mergeRanges]
  rcases hsort : sortRanges rs with _ | ⟨r, more⟩
  · exact ⟨trivial, List.forall_mem_nil _⟩
  · rw [hsort] at hsorted hall
    exact ⟨apart_joinRanges hsorted (fun s hs => (hall s hs).1) (Nat.zero_le _),
      stop_le_joinRanges fun s hs => (hall s hs).2⟩

/-! ### Cutting ranges out -/

theorem inSomeRange_eq_false (hpos : ∀ r ∈ rs, pos ≤ r.1) (ho : o < pos) :
    inSomeRange rs o = false := by
  rw [← Bool.not_eq_true, inSomeRange_iff]
  rintro ⟨r, hr, hle, -⟩
  have := hpos r hr
  omega

/-- Ranges that stand apart, cut out one after the other, are cut out character by
    character. -/
theorem withoutRanges_eq {source : Text} (hapart : Apart pos rs)
    (hinside : ∀ r ∈ rs, r.2 ≤ source.length) :
    withoutRanges source pos rs = keptText (inSomeRange rs) pos (source.drop pos) := by
  induction rs generalizing pos with
  | nil => exact (keptText_of_kept fun k _ => rfl).symm
  | cons r rs ih =>
    obtain ⟨hpos, hproper, hrest⟩ := hapart
    rw [List.forall_mem_cons] at hinside
    obtain ⟨hstop, hmore⟩ := hinside
    have hsplit : source.drop pos = (source.drop pos).take (r.1 - pos) ++
        ((source.drop r.1).take (r.2 - r.1) ++ source.drop r.2) := by
      have hfirst := List.take_append_drop (r.1 - pos) (source.drop pos)
      have hsecond := List.take_append_drop (r.2 - r.1) (source.drop r.1)
      rw [List.drop_drop, Nat.add_sub_cancel' hpos] at hfirst
      rw [List.drop_drop, Nat.add_sub_cancel' hproper] at hsecond
      rw [hsecond, hfirst]
    have hlen1 : ((source.drop pos).take (r.1 - pos)).length = r.1 - pos := by
      rw [List.length_take, List.length_drop]
      omega
    have hlen2 : ((source.drop r.1).take (r.2 - r.1)).length = r.2 - r.1 := by
      rw [List.length_take, List.length_drop]
      omega
    have hfront : keptText (inSomeRange (r :: rs)) pos ((source.drop pos).take (r.1 - pos)) =
        (source.drop pos).take (r.1 - pos) := by
      have hbehind : ∀ s ∈ r :: rs, r.1 ≤ s.1 := List.forall_mem_cons.mpr
        ⟨Nat.le_refl _, fun s hs => Nat.le_trans hproper (hrest.le s hs)⟩
      exact keptText_of_kept fun k hk => inSomeRange_eq_false hbehind (by omega)
    have hcut : keptText (inSomeRange (r :: rs)) r.1 ((source.drop r.1).take (r.2 - r.1)) = [] := by
      apply keptText_of_cut
      intro k hk
      exact inSomeRange_iff.mpr ⟨r, List.mem_cons_self, by omega, by omega⟩
    have hback : keptText (inSomeRange (r :: rs)) r.2 (source.drop r.2) =
        keptText (inSomeRange rs) r.2 (source.drop r.2) := by
      apply keptText_congr
      intro k hk
      have hbehind : (decide (r.1 ≤ k) && decide (k < r.2)) = false := by simp; omega
      rw [inSomeRange, List.any_cons, hbehind, Bool.false_or]
      rfl
    rw [withoutRanges, ih hrest hmore, hsplit, keptText_append, keptText_append, hlen1, hlen2,
      Nat.add_sub_cancel' hpos, Nat.add_sub_cancel' hproper, ← hsplit, hfront, hcut, hback,
      List.nil_append]

end

/-! ### Where lines start and stop -/

theorem le_length_takeWhile_iff {α : Type} {p : α → Bool} {l : List α} {n : Nat} :
    n ≤ (l.takeWhile p).length ↔
      n ≤ l.length ∧ ∀ j < n, ∀ a, l[j]? = some a → p a = true := by
  induction l generalizing n with
  | nil => simp
  | cons c l ih =>
    cases n with
    | zero => simp
    | succ n =>
      by_cases hc : p c = true
      · rw [List.takeWhile_cons_of_pos hc, List.length_cons, List.length_cons,
          Nat.succ_le_succ_iff, Nat.succ_le_succ_iff, ih, Nat.forall_lt_succ_left]
        simp [hc]
      · rw [List.takeWhile_cons_of_neg hc]
        constructor
        · exact fun h => absurd h (Nat.not_succ_le_zero n)
        · rintro ⟨-, hall⟩
          exact absurd (hall 0 (Nat.succ_pos n) c rfl) hc

section

variable {source : Text} {e o s k : Nat}

/-- A line starts in front of an offset, as far as no line feed stands in between. -/
theorem lineStart_le_iff (ho : o ≤ s) (hs : s ≤ source.length) :
    lineStart source s ≤ o ↔ ∀ j, o ≤ j → j < s → source[j]? ≠ some '\n' := by
  have hlen : (source.take s).length = s := List.length_take_of_le hs
  have hback : ∀ j < s, (source.take s).reverse[j]? = source[s - 1 - j]? := by
    intro j hj
    rw [List.getElem?_reverse (by omega), hlen, List.getElem?_take_of_lt (by omega)]
  rw [lineStart, Text.afterLast, List.length_reverse, Nat.sub_le_iff_le_add, Nat.add_comm,
    ← Nat.sub_le_iff_le_add, le_length_takeWhile_iff, List.length_reverse, hlen]
  constructor
  · rintro ⟨-, hall⟩ j hoj hjs heq
    have hchar := hall (s - 1 - j) (by omega) '\n'
    rw [hback _ (by omega), show s - 1 - (s - 1 - j) = j by omega] at hchar
    exact absurd (hchar heq) (by decide)
  · intro hall
    refine ⟨by omega, ?_⟩
    intro j hj a ha
    rw [hback j (by omega)] at ha
    simp only [ne_eq, decide_eq_true_eq]
    rintro rfl
    exact hall (s - 1 - j) (by omega) (by omega) ha

/-- A line stops behind its line feed, or at the end of the source. -/
theorem lineStop_cases (source : Text) (e : Nat) :
    let line := (source.drop e).takeWhile (· ≠ '\n')
    (lineStop source e = e + line.length ∧ line.length = source.length - e) ∨
      (lineStop source e = e + (line.length + 1) ∧ line.length < source.length - e) := by
  intro line
  have hsplit : line.length + ((source.drop e).dropWhile (· ≠ '\n')).length =
      source.length - e := by
    rw [← List.length_append, List.takeWhile_append_dropWhile, List.length_drop]
  unfold lineStop
  split
  · next hnone =>
    rw [hnone, List.length_nil, Nat.add_zero] at hsplit
    exact .inl ⟨by rw [hsplit], hsplit⟩
  · next hcons =>
    rw [hcons, List.length_cons] at hsplit
    exact .inr ⟨rfl, by omega⟩

/-- A line goes on behind an offset, as far as no line feed stands in between. -/
theorem lt_lineStop_iff (he : e ≤ o) (ho : o < source.length) :
    o < lineStop source e ↔ ∀ j, e ≤ j → j < o → source[j]? ≠ some '\n' := by
  have hdrop : o - e ≤ ((source.drop e).takeWhile (· ≠ '\n')).length ↔
      ∀ j, e ≤ j → j < o → source[j]? ≠ some '\n' := by
    rw [le_length_takeWhile_iff, List.length_drop]
    constructor
    · rintro ⟨-, hall⟩ j hej hjo heq
      have hchar := hall (j - e) (by omega) '\n'
      rw [List.getElem?_drop, Nat.add_sub_cancel' hej] at hchar
      exact absurd (hchar heq) (by decide)
    · intro hall
      refine ⟨by omega, ?_⟩
      intro j hj a ha
      rw [List.getElem?_drop] at ha
      simp only [ne_eq, decide_eq_true_eq]
      rintro rfl
      exact hall (e + j) (by omega) (by omega) ha
  rw [← hdrop]
  rcases lineStop_cases source e with ⟨hstop, hline⟩ | ⟨hstop, hline⟩ <;> omega

theorem le_lineStop (source : Text) (e : Nat) : e ≤ lineStop source e := Nat.le_add_right _ _

theorem lineStart_le (source : Text) (s : Nat) : lineStart source s ≤ s := Nat.sub_le _ _

theorem lineStop_le (he : e ≤ source.length) : lineStop source e ≤ source.length := by
  rcases lineStop_cases source e with ⟨hstop, hline⟩ | ⟨hstop, hline⟩ <;> omega

theorem lineStart_boundary (ho : o ≤ source.length) (hk : lineStart source o = k + 1) :
    source[k]? = some '\n' := by
  have hko : k + 1 ≤ o := hk ▸ lineStart_le source o
  have hbehind := (lineStart_le_iff hko ho).mp (Nat.le_of_eq hk)
  apply Classical.byContradiction
  intro hne
  have hle : lineStart source o ≤ k := by
    rw [lineStart_le_iff (by omega) ho]
    intro j hkj hjo
    rcases Nat.eq_or_lt_of_le hkj with rfl | hlt
    · exact hne
    · exact hbehind j hlt hjo
  omega

theorem lineStop_boundary (hk : lineStop source o = k + 1) (hlen : k + 1 < source.length) :
    source[k]? = some '\n' := by
  have hok : o ≤ k + 1 := hk ▸ le_lineStop source o
  apply Classical.byContradiction
  intro hne
  have hlt : k + 1 < lineStop source o := by
    rw [lt_lineStop_iff hok hlen]
    intro j hoj hj
    rcases Nat.eq_or_lt_of_le (Nat.le_of_lt_succ hj) with rfl | hlt
    · exact hne
    · exact (lt_lineStop_iff (by omega) (by omega)).mp (by omega) j hoj hlt
  omega

end

/-! ### Directives among tokens -/

/-- A directive takes up some of the source, and its last character is no line feed. -/
structure Directive.LiesIn (source : Text) (d : Directive) : Prop where
  proper : d.start < d.stop
  inside : d.stop ≤ source.length
  ends : source[d.stop - 1]? ≠ some '\n'

/-- A token at which a directive starts, unless it stands in another one. -/
def startsDirective (t : Token) : Bool := t.kind == .usingWord || t.isRequirement

/-- A directive from its first token to its last one. -/
structure Directive.Spans (ts : List Token) (d : Directive) (t u : Token) : Prop where
  first : startsDirective t = true
  last : u.kind ≠ .newline
  order : u = t ∨ [t, u].Sublist ts
  start : d.start = t.start.offset
  stop : d.stop = u.stop.offset

theorem Directive.Spans.mono {ts us : List Token} {d : Directive} {t u : Token}
    (h : d.Spans ts t u) (hsub : ts.Sublist us) : d.Spans us t u :=
  { h with order := h.order.imp id fun hpair => hpair.trans hsub }

theorem usingDirective_split {sc : Script} {keyword : Token} {ts : List Token}
    {p : Parsed Statement} (h : sc.usingDirective keyword ts = .ok p) :
    ∃ front, ts = front ++ p.last :: p.rest ∧ isNamePart p.last = true := by
  obtain ⟨i, himport, -⟩ := Grammar.usingDirective_iff.mp h
  exact himport.split

theorem usingDirective_rest {sc : Script} {keyword : Token} {ts : List Token}
    {p : Parsed Statement} (h : sc.usingDirective keyword ts = .ok p) : p.rest <:+ ts := by
  obtain ⟨i, himport, -⟩ := Grammar.usingDirective_iff.mp h
  exact (List.suffix_cons _ _).trans himport.extent

theorem mem_take_of_suffix {α : Type} {rest r : List α} (h : rest <:+ r) {n : Nat} {a : α}
    (ha : a ∈ rest.take (n - (r.length - rest.length))) : a ∈ r.take n := by
  obtain ⟨front, rfl⟩ := h
  rw [List.length_append, Nat.add_sub_cancel] at ha
  rw [List.take_append]
  exact List.mem_append_right _ ha

/-- Every directive starts at a keyword or at a requirement comment among the first tokens. -/
theorem directives_spans {sc : Script} {n : Nat} {ts : List Token} {ds : List Directive}
    (h : sc.directives n ts = .ok ds) : ∀ d ∈ ds, ∃ t ∈ ts.take n, ∃ u, d.Spans ts t u := by
  fun_induction directives sc n ts generalizing ds with
  | case1 ts =>
    cases h
    exact List.forall_mem_nil _
  | case2 n =>
    cases h
    exact List.forall_mem_nil _
  | case3 n t r ht e hparse => cases h
  | case4 n t r ht p hparse ih =>
    obtain ⟨ds', hds, rfl⟩ := map_eq_ok h
    obtain ⟨front, hsplit, hlast⟩ := usingDirective_split hparse
    intro d hd
    rcases List.mem_cons.mp hd with rfl | hd
    · refine ⟨t, List.mem_cons_self, p.last, ?_, ?_, .inr ?_, rfl, rfl⟩
      · simp [startsDirective, ht]
      · intro hnewline
        simp [isNamePart, endsDirective, hnewline] at hlast
      · rw [hsplit]
        exact (List.singleton_sublist.mpr (by simp)).cons_cons t
    · obtain ⟨u, hu, v, hspans⟩ := ih hds d hd
      have hrest := usingDirective_rest hparse
      exact ⟨u, List.mem_cons_of_mem _ (mem_take_of_suffix hrest hu), v,
        hspans.mono (hrest.sublist.cons t)⟩
  | case5 n t r ht hreq e hparse => cases h
  | case6 n t r ht hreq s hparse ih =>
    obtain ⟨ds', hds, rfl⟩ := map_eq_ok h
    intro d hd
    rcases List.mem_cons.mp hd with rfl | hd
    · refine ⟨t, List.mem_cons_self, t, ?_, ?_, .inl rfl, rfl, rfl⟩
      · simp [startsDirective, hreq]
      · intro hnewline
        simp [Token.isRequirement, hnewline] at hreq
    · obtain ⟨u, hu, v, hspans⟩ := ih hds d hd
      exact ⟨u, List.mem_cons_of_mem _ hu, v, hspans.mono (List.sublist_cons_self t r)⟩
  | case7 n t r ht hreq ih =>
    intro d hd
    obtain ⟨u, hu, v, hspans⟩ := ih h d hd
    exact ⟨u, List.mem_cons_of_mem _ hu, v, hspans.mono (List.sublist_cons_self t r)⟩

/-- No token but a line end ends with a line feed. -/
theorem token_ends {source : Text} {s : Scan} (h : scan source = .ok s) {t : Token}
    (ht : t ∈ s.tokens) (hkind : t.kind ≠ .newline) : source[t.stop.offset - 1]? ≠ some '\n' := by
  obtain ⟨ps, rfl, hspells, htokens⟩ := exists_pieces h
  rw [htokens] at ht
  obtain ⟨i, hi⟩ := List.getElem?_of_mem ht
  obtain ⟨front, c, w, l, back, rfl, -, rfl⟩ := exists_lexeme hi
  have hfits := (spells_append.mp hspells).2.1
  have hc : c ≠ '\n' := by
    rintro rfl
    obtain ⟨-, rfl⟩ := hfits.line_feed
    exact hkind rfl
  obtain ⟨-, hread, hlen⟩ := hfits
  have hend := getLast?_read_ne hread hc
  rw [← hlen, List.take_left] at hend
  have hoffset : (l.token (Position.start.advance (textOf front)) c w).stop.offset - 1 =
      (textOf front).length + w.length := by
    rw [token_stop hlen, advance_offset, advance_offset, List.length_cons]
    have hzero : Position.start.offset = 0 := rfl
    omega
  rw [hoffset, textOf_append, List.getElem?_append_right (by omega), Nat.add_sub_cancel_left,
    textOf_cons, List.getElem?_append_left (by simp [Piece.text])]
  rwa [List.getLast?_eq_getElem?, List.length_cons, Nat.add_sub_cancel] at hend

theorem directives_liesIn {source : Text} {s : Scan} (h : scan source = .ok s) {sc : Script}
    {n : Nat} {ds : List Directive} (hds : sc.directives n s.tokens = .ok ds) :
    ∀ d ∈ ds, d.LiesIn source := by
  have htiling := scan_tiling h
  intro d hd
  obtain ⟨t, ht, u, hspans⟩ := directives_spans hds d hd
  have ht : t ∈ s.tokens := List.mem_of_mem_take ht
  have hu : u ∈ s.tokens := by
    rcases hspans.order with rfl | hpair
    · exact ht
    · exact hpair.subset (List.mem_cons_of_mem _ List.mem_cons_self)
  have hproper : t.start.offset < u.stop.offset := by
    have htproper := (htiling.nonempty t ht).2
    rcases hspans.order with rfl | hpair
    · exact htproper
    · have hle := (List.pairwise_iff_forall_sublist.mp htiling.ordered) hpair
      have huproper := (htiling.nonempty u hu).2
      omega
  constructor
  · rw [hspans.start, hspans.stop]
    exact hproper
  · rw [hspans.stop]
    exact htiling.inside u hu
  · rw [hspans.stop]
    exact token_ends h hu hspans.last

/-! ### Lines of directives -/

/-- Whether an offset lies on a line of a directive. -/
def isCut (source : Text) (ds : List Directive) (o : Nat) : Bool :=
  ds.any fun d => (lineRange source d).1 ≤ o && o < (lineRange source d).2

theorem withoutDirectives_eq {source : Text} {ds : List Directive}
    (h : ∀ d ∈ ds, d.LiesIn source) :
    withoutDirectives source ds = keptText (isCut source ds) 0 source := by
  have hranges : ∀ r ∈ ds.map (lineRange source), r.1 ≤ r.2 ∧ r.2 ≤ source.length := by
    intro r hr
    obtain ⟨d, hd, rfl⟩ := List.mem_map.mp hr
    have hstart := lineStart_le source d.start
    have hstop := le_lineStop source d.stop
    have hproper := (h d hd).proper
    exact ⟨by simp only [lineRange]; omega, lineStop_le (h d hd).inside⟩
  obtain ⟨hapart, hinside⟩ := apart_mergeRanges hranges
  rw [withoutDirectives, withoutRanges_eq hapart hinside]
  apply keptText_congr
  intro o _
  rw [inSomeRange_mergeRanges, inSomeRange, List.any_map]
  rfl

theorem lineWise_isCut {source : Text} {ds : List Directive}
    (h : ∀ d ∈ ds, d.start ≤ source.length) : LineWise (isCut source ds) 0 source := by
  intro k c hk hc hlen
  rw [Nat.zero_add]
  have hne : source[k]? ≠ some '\n' := by
    rw [hk]
    exact fun heq => hc (Option.some.inj heq)
  have hrange : ∀ d ∈ ds, ((lineRange source d).1 ≤ k + 1 ↔ (lineRange source d).1 ≤ k) ∧
      (k + 1 < (lineRange source d).2 ↔ k < (lineRange source d).2) := by
    intro d hd
    have hstart : (lineRange source d).1 ≠ k + 1 :=
      fun heq => hne (lineStart_boundary (h d hd) heq)
    have hstop : (lineRange source d).2 ≠ k + 1 :=
      fun heq => hne (lineStop_boundary heq hlen)
    omega
  rw [Bool.eq_iff_iff]
  simp only [isCut, List.any_eq_true, Bool.and_eq_true, decide_eq_true_eq]
  constructor
  · rintro ⟨d, hd, h1, h2⟩
    exact ⟨d, hd, (hrange d hd).1.mp h1, (hrange d hd).2.mp h2⟩
  · rintro ⟨d, hd, h1, h2⟩
    exact ⟨d, hd, (hrange d hd).1.mpr h1, (hrange d hd).2.mpr h2⟩

theorem isCut_of_mem {source : Text} {ds : List Directive} {d : Directive} (hd : d ∈ ds)
    {o : Nat} (hstart : d.start ≤ o) (hstop : o < d.stop) : isCut source ds o = true := by
  simp only [isCut, List.any_eq_true, Bool.and_eq_true, decide_eq_true_eq]
  refine ⟨d, hd, ?_, ?_⟩
  · exact Nat.le_trans (Nat.sub_le _ _) hstart
  · exact Nat.lt_of_lt_of_le hstop (Nat.le_add_right _ _)

/-- If directives start in front of an offset that is not cut, nothing behind it is. -/
theorem isCut_behind {source : Text} {ds : List Directive} {o : Nat}
    (hstart : ∀ d ∈ ds, d.start ≤ o) (hkept : isCut source ds o = false) {k : Nat}
    (hk : o ≤ k) : isCut source ds k = false := by
  rw [← Bool.not_eq_true] at hkept ⊢
  simp only [isCut, List.any_eq_true, Bool.and_eq_true, decide_eq_true_eq] at hkept ⊢
  rintro ⟨d, hd, -, hstop⟩
  refine hkept ⟨d, hd, ?_, Nat.lt_of_le_of_lt hk hstop⟩
  exact Nat.le_trans (Nat.sub_le _ _) (hstart d hd)

end ScriptModule.Script
