/-
  ScriptModule/Proofs/CutLines.lean
  =================================
  **The body line by line.**  However the ranges of the directives overlap, they cover a
  line as a whole or not at all, and they cover it exactly if it has a character of a
  directive.  So the body is made of the other lines, behind the blank ones at its front.
-/
import ScriptModule.Proofs.EntryBody

namespace ScriptModule.Script

open Unicode

/-! ### Lines with their line feeds -/

/-- The lines of a text, each with its line feed; the last one may have none. -/
def fullLines : Text → List Text
  | [] => []
  | c :: t =>
    if c = '\n' then [c] :: fullLines t
    else
      match fullLines t with
      | [] => [[c]]
      | l :: ls => (c :: l) :: ls

/-- Lines with the offsets at which they start; the first one starts at `o`. -/
def placedFrom (o : Nat) : List Text → List (Nat × Text)
  | [] => []
  | l :: ls => (o, l) :: placedFrom (o + l.length) ls

/-- Whether a line has spaces and tabs only in front of its line feed. -/
def isBlankLine (l : Text) : Bool := l.all fun c => c = ' ' || c = '\t' || c = '\n'

/-- Whether a line has a character of a directive. -/
def Directive.touches (d : Directive) (line : Nat × Text) : Bool :=
  (List.range line.2.length).any fun k => d.start ≤ line.1 + k && line.1 + k < d.stop

/-- The lines that have no character of a directive. -/
def keptLines (source : Text) (ds : List Directive) : List Text :=
  ((placedFrom 0 (fullLines source)).filter fun l => ds.all fun d => !d.touches l).map Prod.snd

/-- Rows of lines: only the last one may have no line feed. -/
inductive AreLines : List Text → Prop where
  | nil : AreLines []
  | last {l : Text} : l ≠ [] → '\n' ∉ l → AreLines [l]
  | cons {l : Text} {ls : List Text} : '\n' ∉ l → AreLines ls → AreLines ((l ++ ['\n']) :: ls)

theorem flatten_fullLines (t : Text) : (fullLines t).flatten = t := by
  fun_induction fullLines t with
  | case1 => rfl
  | case2 t ih => rw [List.flatten_cons, ih, List.singleton_append]
  | case3 c t hc hnone ih =>
    rw [hnone] at ih
    rw [← ih]
    rfl
  | case4 c t hc l ls hmore ih =>
    rw [hmore] at ih
    rw [← ih]
    rfl

theorem areLines_fullLines (t : Text) : AreLines (fullLines t) := by
  fun_induction fullLines t with
  | case1 => exact .nil
  | case2 t ih => exact .cons (l := []) List.not_mem_nil ih
  | case3 c t hc hnone ih =>
    exact .last (List.cons_ne_nil c []) (by simpa using Ne.symm hc)
  | case4 c t hc l ls hmore ih =>
    rw [hmore] at ih
    cases ih with
    | last hne hl => exact .last (List.cons_ne_nil c l) (by simp [hl, Ne.symm hc])
    | @cons l _ hl hls => exact .cons (l := c :: l) (by simp [hl, Ne.symm hc]) hls

theorem AreLines.sublist {ls ms : List Text} (h : AreLines ls) (hsub : ms.Sublist ls) :
    AreLines ms := by
  induction h generalizing ms with
  | nil =>
    rw [List.sublist_nil.mp hsub]
    exact .nil
  | last hne hl =>
    cases hsub with
    | cons _ hsub =>
      rw [List.sublist_nil.mp hsub]
      exact .nil
    | cons_cons _ hsub =>
      rw [List.sublist_nil.mp hsub]
      exact .last hne hl
  | cons hl hls ih =>
    cases hsub with
    | cons _ hsub => exact ih hsub
    | cons_cons _ hsub => exact .cons hl (ih hsub)

theorem map_snd_placedFrom (o : Nat) (ls : List Text) : (placedFrom o ls).map Prod.snd = ls := by
  induction ls generalizing o with
  | nil => rfl
  | cons l ls ih => rw [placedFrom, List.map_cons, ih]

/-! ### Lines in their place -/

/-- A line as it stands in a source: line feeds bound it and are nowhere else in it. -/
structure StandsAt (source : Text) (o : Nat) (l : Text) : Prop where
  proper : 0 < l.length
  inside : o + l.length ≤ source.length
  first : o = 0 ∨ source[o - 1]? = some '\n'
  inner : ∀ j, o ≤ j → j + 1 < o + l.length → source[j]? ≠ some '\n'
  last : o + l.length = source.length ∨ source[o + l.length - 1]? = some '\n'

theorem standsAt_append {front l back : Text} (hproper : 0 < l.length)
    (hfirst : front = [] ∨ front.getLast? = some '\n') (hinner : '\n' ∉ l.dropLast)
    (hlast : back = [] ∨ l.getLast? = some '\n') :
    StandsAt (front ++ (l ++ back)) front.length l := by
  have hlen : (front ++ (l ++ back)).length = front.length + l.length + back.length := by
    rw [List.length_append, List.length_append, Nat.add_assoc]
  have hmid : ∀ j, front.length ≤ j → j < front.length + l.length →
      (front ++ (l ++ back))[j]? = l[j - front.length]? := by
    intro j hj hjl
    rw [List.getElem?_append_right hj, List.getElem?_append_left (by omega)]
  refine ⟨hproper, by omega, ?_, ?_, ?_⟩
  · apply hfirst.imp
    · rintro rfl
      rfl
    · intro hfeed
      have hpos : 0 < front.length := by
        apply List.length_pos_iff.mpr
        rintro rfl
        cases hfeed
      rw [List.getElem?_append_left (by omega), ← List.getLast?_eq_getElem?]
      exact hfeed
  · intro j hj hjl hfeed
    rw [hmid j hj (by omega)] at hfeed
    apply hinner
    apply List.mem_of_getElem? (i := j - front.length)
    rw [List.getElem?_dropLast, if_pos (by omega)]
    exact hfeed
  · apply hlast.imp
    · rintro rfl
      rw [hlen, List.length_nil, Nat.add_zero]
    · intro hfeed
      rw [hmid _ (by omega) (by omega), show front.length + l.length - 1 - front.length =
        l.length - 1 by omega, ← List.getLast?_eq_getElem?]
      exact hfeed

theorem standsAt_placedFrom {source front : Text} {ls : List Text} (h : AreLines ls)
    (hsource : source = front ++ ls.flatten)
    (hfront : front = [] ∨ front.getLast? = some '\n') :
    ∀ x ∈ placedFrom front.length ls, StandsAt source x.1 x.2 := by
  induction h generalizing front with
  | nil => exact List.forall_mem_nil _
  | @last l hne hl =>
    have hstands : StandsAt (front ++ (l ++ [])) front.length l :=
      standsAt_append (List.length_pos_iff.mpr hne) hfront
        (fun hmem => hl (List.dropLast_subset l hmem)) (.inl rfl)
    intro x hx
    rw [List.mem_singleton.mp hx, hsource]
    exact hstands
  | @cons l ls hl hls ih =>
    have hstands : StandsAt (front ++ ((l ++ ['\n']) ++ ls.flatten)) front.length (l ++ ['\n']) :=
      standsAt_append (by simp) hfront (by simpa using hl) (.inr (by simp))
    intro x hx
    rcases List.mem_cons.mp hx with rfl | hx
    · rw [hsource]
      exact hstands
    · rw [← List.length_append] at hx
      exact ih (by rw [hsource, List.flatten_cons, List.append_assoc front]) (.inr (by simp)) x hx

section

variable {source l : Text} {o k s e : Nat}

theorem StandsAt.lineStart_le_iff (h : StandsAt source o l) (hk : k < l.length)
    (hs : s < source.length) : lineStart source s ≤ o + k ↔ s < o + l.length := by
  have hstart := lineStart_le source s
  constructor
  · intro hle
    apply Nat.lt_of_not_le
    intro hbehind
    -- the line feed of the line stands between the two offsets
    have hfeed := h.last.resolve_left (by omega)
    exact (Script.lineStart_le_iff (by omega) (Nat.le_of_lt hs)).mp hle (o + l.length - 1)
      (by omega) (by omega) hfeed
  · intro hlt
    rcases Nat.lt_or_ge s (o + k) with hbefore | hbehind
    · omega
    · rw [Script.lineStart_le_iff hbehind (Nat.le_of_lt hs)]
      exact fun j hj hjs => h.inner j (by omega) (by omega)

theorem StandsAt.lt_lineStop_iff (h : StandsAt source o l) (hk : k < l.length)
    (hpos : 0 < e) (hend : source[e - 1]? ≠ some '\n') :
    o + k < lineStop source e ↔ o < e := by
  have hinside := h.inside
  have hstop := le_lineStop source e
  constructor
  · intro hlt
    apply Nat.lt_of_not_le
    intro hle
    -- the line feed in front of the line stands between the two offsets
    have hfeed := h.first.resolve_left (by omega)
    rcases Nat.eq_or_lt_of_le hle with rfl | hbefore
    · exact hend hfeed
    · exact (Script.lt_lineStop_iff (by omega) (by omega)).mp hlt (o - 1) (by omega) (by omega)
        hfeed
  · intro hlt
    rcases Nat.lt_or_ge (o + k) e with hbefore | hbehind
    · omega
    · rw [Script.lt_lineStop_iff hbehind (by omega)]
      exact fun j hj hjk => h.inner j (by omega) (by omega)

theorem Directive.touches_iff {d : Directive} (hd : d.start < d.stop) (hl : 0 < l.length) :
    d.touches (o, l) = true ↔ d.start < o + l.length ∧ o < d.stop := by
  simp only [touches, List.any_eq_true, List.mem_range, Bool.and_eq_true, decide_eq_true_eq]
  constructor
  · rintro ⟨k, hk, hstart, hstop⟩
    omega
  · rintro ⟨hstart, hstop⟩
    exact ⟨max d.start o - o, by omega, by omega, by omega⟩

/-- The lines of directives cover a line at each of its offsets or at none. -/
theorem StandsAt.isCut_eq {ds : List Directive} (h : StandsAt source o l)
    (hds : ∀ d ∈ ds, d.LiesIn source) (hk : k < l.length) :
    isCut source ds (o + k) = ds.any fun d => d.touches (o, l) := by
  have hinside := h.inside
  rw [Bool.eq_iff_iff, isCut, List.any_eq_true, List.any_eq_true]
  refine exists_congr fun d => and_congr_right fun hd => ?_
  obtain ⟨hproper, hstop, hends⟩ := hds d hd
  rw [Directive.touches_iff hproper h.proper, Bool.and_eq_true, decide_eq_true_eq,
    decide_eq_true_eq]
  exact and_congr (h.lineStart_le_iff hk (by omega)) (h.lt_lineStop_iff hk (by omega) hends)

end

/-! ### Whole lines -/

/-- Where each line is cut as a whole or not at all, the lines that are not are left. -/
theorem keptText_flatten {cut : Nat → Bool} {cutLine : Nat × Text → Bool} {o : Nat}
    {ls : List Text} (h : ∀ x ∈ placedFrom o ls, ∀ k < x.2.length, cut (x.1 + k) = cutLine x) :
    keptText cut o ls.flatten =
      (((placedFrom o ls).filter fun x => !cutLine x).map Prod.snd).flatten := by
  induction ls generalizing o with
  | nil => rfl
  | cons l ls ih =>
    rw [placedFrom, List.forall_mem_cons] at h
    obtain ⟨hline, hmore⟩ := h
    rw [List.flatten_cons, keptText_append, ih hmore, placedFrom]
    cases hcut : cutLine (o, l) with
    | true =>
      rw [keptText_of_cut fun k hk => (hline k hk).trans hcut]
      simp [hcut]
    | false =>
      rw [keptText_of_kept fun k hk => (hline k hk).trans hcut]
      simp [hcut]

theorem withoutDirectives_eq_keptLines {source : Text} {ds : List Directive}
    (h : ∀ d ∈ ds, d.LiesIn source) :
    withoutDirectives source ds = (keptLines source ds).flatten := by
  have hstands : ∀ x ∈ placedFrom 0 (fullLines source), StandsAt source x.1 x.2 :=
    @standsAt_placedFrom source [] _ (areLines_fullLines source)
      (flatten_fullLines source).symm (.inl rfl)
  have hlines := keptText_flatten fun x hx k hk => (hstands x hx).isCut_eq h hk
  rw [flatten_fullLines] at hlines
  rw [withoutDirectives_eq h, hlines, keptLines]
  simp only [List.not_any_eq_all_not]

theorem areLines_keptLines (source : Text) (ds : List Directive) :
    AreLines (keptLines source ds) := by
  apply (areLines_fullLines source).sublist
  rw [← map_snd_placedFrom 0 (fullLines source)]
  exact List.filter_sublist.map Prod.snd

/-! ### Blank lines at the front -/

theorem isBlankLine_iff {l : Text} (hl : '\n' ∉ l) :
    isBlankLine l = true ↔ ∀ c ∈ l, c = ' ' ∨ c = '\t' := by
  simp only [isBlankLine, List.all_eq_true, Bool.or_eq_true, decide_eq_true_eq]
  constructor
  · intro h c hc
    apply (h c hc).resolve_right
    rintro rfl
    exact hl hc
  · exact fun h c hc => .inl (h c hc)

theorem dropBlankLines_of_blank {l : Text} (h : ∀ c ∈ l, c = ' ' ∨ c = '\t') (rest : Text) :
    dropBlankLines (l ++ '\n' :: rest) = dropBlankLines rest := by
  have hdrop : (l ++ '\n' :: rest).dropWhile (fun c => c = ' ' || c = '\t') = '\n' :: rest := by
    rw [List.dropWhile_append_of_pos (by simpa using h)]
    rfl
  rw [dropBlankLines]
  split
  · next r hr =>
    rw [hdrop] at hr
    rw [(List.cons.inj hr).2]
  · next hne => exact absurd hdrop (hne rest)

theorem dropBlankLines_of_not_blank {l : Text} (hl : '\n' ∉ l)
    (hblank : ¬ isBlankLine l = true) (rest : Text) :
    dropBlankLines (l ++ rest) = l ++ rest := by
  rcases hdrop : l.dropWhile (fun c => c = ' ' || c = '\t') with _ | ⟨d, t⟩
  · apply absurd ((isBlankLine_iff hl).mpr _) hblank
    simpa using List.dropWhile_eq_nil_iff.mp hdrop
  · rw [dropBlankLines]
    split
    · next r hr =>
      rw [dropWhile_append_cons hdrop] at hr
      obtain ⟨rfl, -⟩ := List.cons.inj hr
      have hmem : '\n' ∈ l.dropWhile (fun c => c = ' ' || c = '\t') := by
        rw [hdrop]
        exact List.mem_cons_self
      exact absurd ((List.dropWhile_suffix _).subset hmem) hl
    · rfl

theorem trimEnd_of_blank {t : Text} (h : ∀ c ∈ t, isBlank c = true) : Text.trimEnd t = [] := by
  rw [Text.trimEnd, Text.dropEndWhile, List.reverse_eq_nil_iff, List.dropWhile_eq_nil_iff]
  intro c hc
  exact h c (List.mem_reverse.mp hc)

/-- Without its blank lines, a text is what the lines behind these make, up to blanks at its
    end: blanks behind the last line feed are no line that is dropped. -/
theorem trimEnd_dropBlankLines {ls : List Text} (h : AreLines ls) :
    Text.trimEnd (dropBlankLines ls.flatten) =
      Text.trimEnd (ls.dropWhile isBlankLine).flatten := by
  induction h with
  | nil =>
    rw [List.flatten_nil, dropBlankLines]
    rfl
  | @last l hne hl =>
    rw [List.flatten_singleton]
    by_cases hblank : isBlankLine l = true
    · have hall := (isBlankLine_iff hl).mp hblank
      have hsame : dropBlankLines l = l := by
        have hdrop : l.dropWhile (fun c => c = ' ' || c = '\t') = [] := by
          rw [List.dropWhile_eq_nil_iff]
          simpa using hall
        rw [dropBlankLines]
        split
        · next r hr =>
          rw [hdrop] at hr
          cases hr
        · rfl
      rw [hsame, List.dropWhile_cons_of_pos hblank]
      apply trimEnd_of_blank
      intro c hc
      rcases hall c hc with rfl | rfl <;> decide
    · have hsame := dropBlankLines_of_not_blank hl hblank []
      rw [List.append_nil] at hsame
      rw [hsame, List.dropWhile_cons_of_neg hblank, List.flatten_singleton]
  | @cons l ls hl hls ih =>
    have hline : isBlankLine (l ++ ['\n']) = isBlankLine l := by simp [isBlankLine]
    rw [List.flatten_cons, List.append_assoc, List.singleton_append]
    by_cases hblank : isBlankLine l = true
    · rw [dropBlankLines_of_blank ((isBlankLine_iff hl).mp hblank), ih,
        List.dropWhile_cons_of_pos (hline.trans hblank)]
    · rw [dropBlankLines_of_not_blank hl hblank,
        List.dropWhile_cons_of_neg (by rw [hline]; exact hblank), List.flatten_cons,
        List.append_assoc, List.singleton_append]

/-! ### Directives in front of the parameter block -/

/-- A keyword or a requirement comment among the first tokens stands in a directive, if it
    is not the first token of one. -/
theorem directives_hold {sc : Script} {n : Nat} {ts : List Token} {ds : List Directive}
    (h : sc.directives n ts = .ok ds)
    (hordered : ts.Pairwise fun a b => a.stop.offset ≤ b.start.offset)
    (hproper : ∀ t ∈ ts, t.start.offset < t.stop.offset) :
    ∀ t ∈ ts.take n, startsDirective t = true → ∃ d ∈ ds, d.holds t = true := by
  fun_induction directives sc n ts generalizing ds with
  | case1 ts => exact fun t ht => absurd ht List.not_mem_nil
  | case2 n => exact fun t ht => absurd ht (by simp)
  | case3 n t r ht e hparse => cases h
  | case4 n t r ht p hparse ih =>
    obtain ⟨ds', hds, rfl⟩ := map_eq_ok h
    obtain ⟨front, rfl, -⟩ := usingDirective_split hparse
    rw [List.forall_mem_cons, List.forall_mem_append, List.forall_mem_cons] at hproper
    obtain ⟨htproper, hfront, hlast, hrest⟩ := hproper
    rw [List.pairwise_cons, List.pairwise_append, List.pairwise_cons] at hordered
    obtain ⟨hbehind, -, ⟨-, hmore⟩, hacross⟩ := hordered
    have hconsumed : (front ++ p.last :: p.rest).length - p.rest.length = front.length + 1 := by
      rw [List.length_append, List.length_cons]
      omega
    rw [hconsumed] at ih hds
    have hend := hbehind p.last (by simp)
    intro u hu hstarts
    rw [List.take_succ_cons, List.mem_cons] at hu
    rcases hu with rfl | hu
    · refine ⟨_, List.mem_cons_self, ?_⟩
      simp only [Directive.holds, Bool.and_eq_true, decide_eq_true_eq]
      omega
    · rw [← List.singleton_append, ← List.append_assoc, List.take_append, List.mem_append,
        List.length_append, List.length_singleton] at hu
      rcases hu with hu | hu
      · refine ⟨_, List.mem_cons_self, ?_⟩
        simp only [Directive.holds, Bool.and_eq_true, decide_eq_true_eq]
        rcases List.mem_append.mp (List.mem_of_mem_take hu) with hu | hu
        · have hstart := hbehind u (by simp [hu])
          have hbefore := hacross u hu p.last List.mem_cons_self
          have hu := hfront u hu
          omega
        · rw [List.mem_singleton.mp hu]
          omega
      · obtain ⟨d, hd, hholds⟩ := ih hds hmore hrest u hu hstarts
        exact ⟨d, List.mem_cons_of_mem _ hd, hholds⟩
  | case5 n t r ht hreq e hparse => cases h
  | case6 n t r ht hreq s hparse ih =>
    obtain ⟨ds', hds, rfl⟩ := map_eq_ok h
    rw [List.forall_mem_cons] at hproper
    intro u hu hstarts
    rw [List.take_succ_cons, List.mem_cons] at hu
    rcases hu with rfl | hu
    · exact ⟨_, List.mem_cons_self, by simpa [Directive.holds] using hproper.1⟩
    · obtain ⟨d, hd, hholds⟩ := ih hds hordered.of_cons hproper.2 u hu hstarts
      exact ⟨d, List.mem_cons_of_mem _ hd, hholds⟩
  | case7 n t r ht hreq ih =>
    intro u hu hstarts
    rw [List.take_succ_cons, List.mem_cons] at hu
    rcases hu with rfl | hu
    · simp [startsDirective, ht, hreq] at hstarts
    · exact ih h hordered.of_cons (fun t ht => hproper t (List.mem_cons_of_mem _ ht)) u hu
        hstarts

/-! ### The body of an entry point -/

/-- **The body is the source without the lines of directives.**  Each directive runs from a
    keyword or a requirement comment in front of the parameter block to its last token, and
    every such token in front of the block stands in one.  The body is made of all lines that
    have no character of a directive, but for blank ones at its front and blanks at its end. -/
theorem extract_cuts_whole_lines {known : KnownAliases} {filename : Option Text}
    {name source : Text} {sc : Script} {e : EntryPoint} {ws : List Report}
    (hsource : ofSource filename source = .ok sc) (hextract : sc.extract known name = .ok (e, ws)) :
    ∃ i ds, paramIndex? sc.tokens = some i ∧ sc.directives i sc.tokens = .ok ds ∧
      e.directives = ds.map Directive.statement ∧
      (∀ d ∈ ds, ∃ t ∈ sc.tokens.take i, ∃ u, d.Spans sc.tokens t u) ∧
      (∀ t ∈ sc.tokens.take i, startsDirective t = true → ∃ d ∈ ds, d.holds t = true) ∧
      (fullLines source).flatten = source ∧
      e.body = Text.trimEnd ((keptLines source ds).dropWhile isBlankLine).flatten := by
  obtain ⟨s, hscan, rfl⟩ := ofSource_eq_ok hsource
  obtain ⟨i, ds, hi, hds, -, hbody, hdirectives⟩ := extract_eq_ok hextract
  have htiling := scan_tiling hscan
  refine ⟨i, ds, hi, hds, hdirectives, directives_spans hds, ?_, flatten_fullLines source, ?_⟩
  · exact directives_hold hds htiling.ordered fun t ht => (htiling.nonempty t ht).2
  · rw [hbody, functionBody, withoutDirectives_eq_keptLines (directives_liesIn hscan hds)]
    exact trimEnd_dropBlankLines (areLines_keptLines source ds)

/-- Two directives on one line, of which the second goes on on the next one, a third one
    behind a blank line, and no line feed at the end. -/
theorem extract_cuts_whole_lines_continued :
    ∃ sc e ws, ofSource none "using namespace A; using module \x60
  B
 \t
#Requires -Version 5.1
  # kept
param($x)
  $x  ".toList = .ok sc ∧ sc.extract Table.empty "Get-Foo".toList = .ok (e, ws) ∧
      e.directives.length = 3 ∧ e.body = "  # kept\nparam($x)\n  $x".toList := by
  have hrun : ((ofSource none "using namespace A; using module \x60
  B
 \t
#Requires -Version 5.1
  # kept
param($x)
  $x  ".toList).toOption.any fun sc =>
      (sc.extract Table.empty "Get-Foo".toList).toOption.any fun _ =>
        (paramIndex? sc.tokens).any fun i => (sc.directives i sc.tokens).toOption.any fun ds =>
          ds.length = 3 ∧ Text.trimEnd ((keptLines sc.source ds).dropWhile isBlankLine).flatten =
            "  # kept\nparam($x)\n  $x".toList) = true := by
    decide +kernel
  -- from here on only what has been run matters, not the text
  generalize "using namespace A; using module \x60
  B
 \t
#Requires -Version 5.1
  # kept
param($x)
  $x  ".toList = source at hrun ⊢
  obtain ⟨sc, hsource, hrun⟩ := toOption_any.mp hrun
  obtain ⟨⟨e, ws⟩, hextract, hrun⟩ := toOption_any.mp hrun
  obtain ⟨i, ds, hi, hds, hdirectives, -, -, -, hbody⟩ := extract_cuts_whole_lines hsource hextract
  obtain ⟨s, -, rfl⟩ := ofSource_eq_ok hsource
  simp only [hi, hds, Except.toOption, Option.any_some, decide_eq_true_eq] at hrun
  refine ⟨_, e, ws, hsource, hextract, ?_, hbody.trans hrun.2⟩
  rw [hdirectives, List.length_map]
  exact hrun.1

end ScriptModule.Script
