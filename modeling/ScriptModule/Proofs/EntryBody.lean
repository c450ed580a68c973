/-
  ScriptModule/Proofs/EntryBody.lean
  ==================================
  **The body of an entry point.**  The directives in front of a parameter block are cut
  out with their lines.  From the block on nothing is lost, if it stands on no such line;
  in front of it the tokens on the other lines are left as they were.
-/
import ScriptModule.Outcome
import ScriptModule.Proofs.LineRanges

namespace ScriptModule

open Lexeme Unicode

namespace Script

/-! ### The parameter keyword -/

theorem paramIndexFrom_kind {groups : List TokenKind} {ts : List Token} {i : Nat}
    (h : paramIndexFrom groups ts = some i) : ∃ p, ts[i]? = some p ∧ p.kind = .paramWord := by
  induction ts generalizing groups i with
  | nil => cases h
  | cons t ts ih =>
    rw [paramIndexFrom] at h
    split at h
    · next hkind =>
      cases h
      simp only [Bool.and_eq_true, beq_iff_eq] at hkind
      exact ⟨t, rfl, hkind.1⟩
    · obtain ⟨j, hj, rfl⟩ := Option.map_eq_some_iff.mp h
      obtain ⟨p, hp, hkind⟩ := ih hj
      exact ⟨p, hp, hkind⟩

theorem inRanges_of_disjoint {as bs : List (Nat × Nat)}
    (h : ∀ a ∈ as, ∀ b ∈ bs, a.2 < b.1 ∨ b.2 < a.1) {n : Nat} (hn : inRanges as n = true) :
    inRanges bs n = false := by
  simp only [inRanges, List.any_eq_true, Bool.and_eq_true, decide_eq_true_eq] at hn
  obtain ⟨a, ha, h1, h2⟩ := hn
  simp only [inRanges, List.any_eq_false, Bool.and_eq_true, decide_eq_true_eq]
  rintro b hb ⟨h3, h4⟩
  rcases h a ha b hb with hlt | hlt <;> omega

theorem isBlank_of_isLetter {c : Char} (h : isLetter c = true) : isBlank c = false := by
  rw [isLetter] at h
  split at h
  · have hval : (decide (c.val ≥ 65 ∧ c.val ≤ 90) || c.val ≥ 97 && c.val ≤ 122) = true := h
    have hrange : inRanges [(0x41, 0x5a), (0x61, 0x7a)] c.toNat = true := by
      simpa [inRanges, UInt32.le_iff_toNat_le] using hval
    exact inRanges_of_disjoint (by decide) hrange
  · exact inRanges_of_disjoint (by decide +kernel) h

theorem isBlank_of_startsWord {c : Char} (h : startsWord c = true) : isBlank c = false := by
  simp only [startsWord, Bool.or_eq_true, decide_eq_true_eq] at h
  rcases h with h | rfl
  · exact isBlank_of_isLetter h
  · decide

/-! ### Trimming -/

theorem trimEnd_append {a b : Text} (h : ∃ c ∈ b, isBlank c = false) :
    Text.trimEnd (a ++ b) = a ++ Text.trimEnd b := by
  obtain ⟨c, hc, hblank⟩ := h
  have hne : ¬ (b.reverse.dropWhile isBlank).isEmpty := by
    rw [List.isEmpty_iff, List.dropWhile_eq_nil_iff]
    intro hall
    have := hall c (List.mem_reverse.mpr hc)
    rw [hblank] at this
    cases this
  rw [Text.trimEnd, Text.dropEndWhile, List.reverse_append, List.dropWhile_append, if_neg hne,
    List.reverse_append, List.reverse_reverse]
  rfl

theorem dropWhile_append_cons {α : Type} {p : α → Bool} {a b : List α} {c : α} {r : List α}
    (h : a.dropWhile p = c :: r) : (a ++ b).dropWhile p = c :: r ++ b := by
  rw [List.dropWhile_append, h]
  rfl

theorem dropBlankLines_append {a : Text} {c : Char} {r : Text} (hc : isBlank c = false) :
    dropBlankLines (a ++ c :: r) = dropBlankLines a ++ c :: r := by
  have hspace : c ≠ ' ' ∧ c ≠ '\t' ∧ c ≠ '\n' := by
    refine ⟨?_, ?_, ?_⟩ <;> rintro rfl <;> exact absurd hc (by decide)
  fun_induction dropBlankLines a with
  | case1 t r' ht ih =>
    rw [dropBlankLines, dropWhile_append_cons ht]
    exact ih
  | case2 t hne =>
    rw [dropBlankLines]
    split
    · next r' heq =>
      rcases hdrop : t.dropWhile fun c => c = ' ' || c = '\t' with _ | ⟨d, t'⟩
      · rw [List.dropWhile_append, hdrop] at heq
        simp [hspace] at heq
      · rw [dropWhile_append_cons hdrop] at heq
        cases heq
        exact absurd hdrop (hne t')
    · rfl

/-! ### Reading behind blank lines -/

theorem exists_behind_line {before : Option TokenKind} {ps : List Piece} {b r : Text}
    (h : Spells before [] ps) (htext : textOf ps = b ++ '\n' :: r)
    (hb : ∀ c ∈ b, c = ' ' ∨ c = '\t') :
    ∃ qs, textOf qs = r ∧ Spells (some .newline) [] qs ∧
      ∀ x y, spelling (tokensOf x qs) = spelling (tokensOf y ps) := by
  induction b generalizing before ps with
  | nil =>
    rcases ps with _ | ⟨p, ps⟩
    · cases htext
    obtain ⟨hp, hps⟩ := h
    cases p with
    | gap c w =>
      obtain rfl : c = '\n' := (List.cons.inj htext).1
      exact absurd hp (not_fits_gap (by decide) (by decide))
    | lexeme c w l =>
      obtain ⟨rfl, htail⟩ := List.cons.inj htext
      obtain ⟨rfl, rfl⟩ := hp.line_feed
      refine ⟨ps, htail, hps, fun x y => ?_⟩
      rw [tokensOf, spelling_cons, token_kind, if_pos rfl]
      exact spelling_tokensOf x _ ps
  | cons c b ih =>
    have hgap : c ≠ '\x60' ∧ isGap c = true := by
      rcases hb c List.mem_cons_self with rfl | rfl <;> decide
    rcases ps with _ | ⟨p, ps⟩
    · cases htext
    obtain ⟨hp, hps⟩ := h
    cases p with
    | gap d w =>
      obtain ⟨rfl, htail⟩ := List.cons.inj htext
      rcases gap_cases hp with ⟨-, -, rfl⟩ | ⟨hd, -⟩
      · obtain ⟨qs, hqs, hspells, hsame⟩ :=
          ih hps htail fun c hc => hb c (List.mem_cons_of_mem _ hc)
        exact ⟨qs, hqs, hspells, fun x y => hsame x _⟩
      · exact absurd hd hgap.1
    | lexeme d w l =>
      obtain ⟨rfl, -⟩ := List.cons.inj htext
      have hzero := hp.1
      rw [List.cons_append, gapLength_of_ne hgap.1, if_pos hgap.2] at hzero
      cases hzero

/-- Without blank lines at its front, a text is read as before. -/
theorem exists_dropBlankLines {before : Option TokenKind} {ps : List Piece} {t : Text}
    (h : Spells before [] ps) (htext : textOf ps = t) (hsign : signMayFollow before = true) :
    ∃ qs, textOf qs = dropBlankLines t ∧ Spells before [] qs ∧
      ∀ x y, spelling (tokensOf x qs) = spelling (tokensOf y ps) := by
  fun_induction dropBlankLines t generalizing ps with
  | case1 t r hdrop ih =>
    have hsplit : t = (t.takeWhile fun c => c = ' ' || c = '\t') ++ '\n' :: r := by
      rw [← hdrop, List.takeWhile_append_dropWhile]
    obtain ⟨ps', hps', hspells, hsame⟩ := exists_behind_line h (htext.trans hsplit) fun c hc => by
      simpa using List.mem_takeWhile_imp hc
    obtain ⟨qs, hqs, hspells', hsame'⟩ := ih (hspells.congr_before hsign.symm) hps'
    exact ⟨qs, hqs, hspells', fun x y => (hsame' x x).trans (hsame x y)⟩
  | case2 t hne => exact ⟨ps, htext, h, fun x y => spelling_tokensOf x y ps⟩

/-! ### What is kept -/

/-- Whether a directive takes up the place at which a token starts. -/
def Directive.holds (d : Directive) (t : Token) : Bool :=
  d.start ≤ t.start.offset && t.start.offset < d.stop

def keptTokens (source : Text) (ds : List Directive) (ts : List Token) : List Token :=
  ts.filter fun t => !isCut source ds t.start.offset

/-- The tokens that belong to no directive. -/
def outsideTokens (ds : List Directive) (ts : List Token) : List Token :=
  ts.filter fun t => ds.all fun d => !d.holds t

/-- Whether a body ends with `tail`, and what stands in front of that reads as `ts`. -/
def BodyKeeps (body tail : Text) (ts : List Token) : Prop :=
  ∃ front s, body = front ++ tail ∧ scan front = .ok s ∧ spelling s.tokens = spelling ts

/-- Whether the lines of the directives can be cut out in front of the parameter block:
    it stands on none of them, no token stands on one in part, and no dash that is kept
    becomes a sign or ceases to be one. -/
structure CleanCut (source : Text) (ds : List Directive) (ts : List Token) (param : Token) :
    Prop where
  param : isCut source ds param.start.offset = false
  whole : ∀ t ∈ ts, ∀ o < t.stop.offset, t.start.offset ≤ o →
    isCut source ds o = isCut source ds t.start.offset
  signs : signsKept (isCut source ds) none none ts = true

theorem bodyKeeps_iff {body tail : Text} {ts : List Token} :
    BodyKeeps body tail ts ↔ tail <:+ body ∧
      ((scan (body.take (body.length - tail.length))).toOption.any fun s =>
        spelling s.tokens == spelling ts) = true := by
  constructor
  · rintro ⟨front, s, rfl, hs, hsame⟩
    refine ⟨List.suffix_append _ _, ?_⟩
    simp [hs, hsame, Except.toOption]
  · rintro ⟨⟨front, rfl⟩, hany⟩
    rw [List.length_append, Nat.add_sub_cancel, List.take_left] at hany
    rcases hs : scan front with e | s
    · rw [hs] at hany
      cases hany
    · rw [hs] at hany
      exact ⟨front, s, rfl, hs, beq_iff_eq.mp hany⟩

instance (body tail : Text) (ts : List Token) : Decidable (BodyKeeps body tail ts) :=
  decidable_of_iff' _ bodyKeeps_iff

instance (source : Text) (ds : List Directive) (ts : List Token) (param : Token) :
    Decidable (CleanCut source ds ts param) :=
  decidable_of_iff
    (isCut source ds param.start.offset = false ∧
      (∀ t ∈ ts, ∀ o < t.stop.offset, t.start.offset ≤ o →
        isCut source ds o = isCut source ds t.start.offset) ∧
      signsKept (isCut source ds) none none ts = true)
    ⟨fun ⟨h1, h2, h3⟩ => ⟨h1, h2, h3⟩, fun ⟨h1, h2, h3⟩ => ⟨h1, h2, h3⟩⟩

theorem isCut_of_holds {source : Text} {ds : List Directive} {d : Directive} {t : Token}
    (hd : d ∈ ds) (h : d.holds t = true) : isCut source ds t.start.offset = true := by
  simp only [Directive.holds, Bool.and_eq_true, decide_eq_true_eq] at h
  exact isCut_of_mem hd h.1 h.2

/-- If directives share their lines with nothing but line ends, the tokens on no line of
    a directive are those that belong to none. -/
theorem spelling_keptTokens {source : Text} {ds : List Directive} {ts : List Token}
    (h : ∀ t ∈ ts, isCut source ds t.start.offset = true →
      t.kind = .newline ∨ ds.any (·.holds t) = true) :
    spelling (keptTokens source ds ts) = spelling (outsideTokens ds ts) := by
  rw [spelling, spelling, keptTokens, outsideTokens, List.filter_filter, List.filter_filter]
  refine congrArg _ (List.filter_congr fun t ht => ?_)
  by_cases hkind : t.kind = .newline
  · simp [hkind]
  · have hsame : ds.any (·.holds t) = isCut source ds t.start.offset := by
      rw [Bool.eq_iff_iff]
      constructor
      · intro hany
        obtain ⟨d, hd, hholds⟩ := List.any_eq_true.mp hany
        exact isCut_of_holds hd hholds
      · intro hcut
        exact (h t ht hcut).resolve_left hkind
    rw [← hsame, List.not_any_eq_all_not]

theorem not_holds_of_mem_keptTokens {source : Text} {ds : List Directive} {ts : List Token}
    {t : Token} (ht : t ∈ keptTokens source ds ts) : ∀ d ∈ ds, d.holds t = false := by
  intro d hd
  obtain ⟨-, hkept⟩ := List.mem_filter.mp ht
  rw [← Bool.not_eq_true]
  intro hholds
  rw [isCut_of_holds hd hholds] at hkept
  cases hkept

/-- From an offset on that is behind all directives and on none of their lines, the body
    is the source. -/
theorem functionBody_eq {source a r : Text} {c : Char} {ds : List Directive}
    (hsource : source = a ++ c :: r) (hc : isBlank c = false)
    (hds : ∀ d ∈ ds, d.LiesIn source) (hstart : ∀ d ∈ ds, d.start ≤ a.length)
    (hkept : isCut source ds a.length = false) :
    functionBody source ds =
      dropBlankLines (keptText (isCut source ds) 0 a) ++ Text.trimEnd (c :: r) := by
  have hrest : keptText (isCut source ds) a.length (c :: r) = c :: r :=
    keptText_of_kept fun k _ => isCut_behind hstart hkept (Nat.le_add_right _ _)
  have hcut : withoutDirectives source ds = keptText (isCut source ds) 0 a ++ c :: r := by
    rw [withoutDirectives_eq hds]
    generalize isCut source ds = cut at hrest ⊢
    rw [hsource, keptText_append, Nat.zero_add, hrest]
  rw [functionBody, hcut, dropBlankLines_append hc,
    trimEnd_append ⟨c, List.mem_cons_self, hc⟩]

theorem scan_front {source : Text} {ds : List Directive} {ps : List Piece} {rest : Text}
    (hps : Spells none rest ps) (hsource : source = textOf ps ++ rest)
    (hstart : ∀ d ∈ ds, d.start ≤ source.length) {param : Token}
    (hclean : CleanCut source ds (tokensOf Position.start ps) param) :
    ∃ s, scan (dropBlankLines (keptText (isCut source ds) 0 (textOf ps))) = .ok s ∧
      spelling s.tokens = spelling (keptTokens source ds (tokensOf Position.start ps)) := by
  have hline : LineWise (isCut source ds) Position.start.offset (textOf ps) := by
    have hall := lineWise_isCut hstart
    rw [hsource] at hall ⊢
    exact hall.append_left
  have hwhole := cutWhole_of_tokens hps hline hclean.whole
  have hkept := hps.keptPieces hwhole hline hclean.signs
  obtain ⟨qs, hqs, hspells, hsame⟩ := exists_dropBlankLines hkept rfl rfl
  refine ⟨⟨tokensOf Position.start qs, Position.start.advance (textOf qs)⟩, ?_,
    (hsame Position.start Position.start).trans (spelling_keptPieces _ _ _ ps)⟩
  rw [scan, show (0 : Nat) = Position.start.offset from rfl, keptText_textOf hwhole, ← hqs]
  exact scanFrom_textOf hspells Position.start

/-! ### The body of an extracted entry point -/

theorem ofSource_eq_ok {filename : Option Text} {source : Text} {sc : Script}
    (h : ofSource filename source = .ok sc) :
    ∃ s, scan source = .ok s ∧ sc = ⟨filename, source, s.tokens, s.stop⟩ := by
  obtain ⟨s, hs, rfl⟩ := map_eq_ok h
  refine ⟨s, ?_, rfl⟩
  rcases hscan : scan source with e | s'
  · simp [scanFile, hscan, Except.mapError] at hs
  · simp only [scanFile, hscan, Except.mapError] at hs
    cases hs
    rfl

theorem extract_eq_ok {known : KnownAliases} {name : Text} {sc : Script} {e : EntryPoint}
    {ws : List Report} (h : sc.extract known name = .ok (e, ws)) :
    ∃ i ds, paramIndex? sc.tokens = some i ∧ sc.directives i sc.tokens = .ok ds ∧
      e.name = name ∧ e.body = functionBody sc.source ds ∧
      e.directives = ds.map Directive.statement := by
  obtain ⟨i, ds, as, hi, hds, -, rfl, rfl⟩ := extract_iff.mp h
  exact ⟨i, ds, hi, hds, rfl, rfl, rfl⟩

/-- From the parameter block on the body is the source, if the block stands on no line of a
    directive.  If the lines are cut cleanly, what stands in front of it in the body reads
    as the tokens on no such line, and none of these belongs to a directive. -/
theorem extract_keeps {known : KnownAliases} {filename : Option Text} {name source : Text}
    {sc : Script} {e : EntryPoint} {ws : List Report} (hsource : ofSource filename source = .ok sc)
    (hextract : sc.extract known name = .ok (e, ws)) :
    ∃ i p ds, paramIndex? sc.tokens = some i ∧ sc.tokens[i]? = some p ∧
      sc.directives i sc.tokens = .ok ds ∧ e.directives = ds.map Directive.statement ∧
      (isCut source ds p.start.offset = false →
        Text.trimEnd (source.drop p.start.offset) <:+ e.body) ∧
      (CleanCut source ds (sc.tokens.take i) p →
        BodyKeeps e.body (Text.trimEnd (source.drop p.start.offset))
          (keptTokens source ds (sc.tokens.take i))) ∧
      (CleanCut source ds (sc.tokens.take i) p →
        (∀ t ∈ sc.tokens.take i, isCut source ds t.start.offset = true →
          t.kind = .newline ∨ ds.any (·.holds t) = true) →
        BodyKeeps e.body (Text.trimEnd (source.drop p.start.offset))
          (outsideTokens ds (sc.tokens.take i))) ∧
      ∀ t ∈ keptTokens source ds (sc.tokens.take i), ∀ d ∈ ds, d.holds t = false := by
  obtain ⟨s, hscan, rfl⟩ := ofSource_eq_ok hsource
  obtain ⟨i, ds, hi, hds, -, hbody, hdirectives⟩ := extract_eq_ok hextract
  simp only at hi hds hbody ⊢
  have hlies : ∀ d ∈ ds, d.LiesIn source := directives_liesIn hscan hds
  obtain ⟨p, hp, hkind⟩ := paramIndexFrom_kind hi
  obtain ⟨ps, htext, hspells, htokens⟩ := exists_pieces hscan
  rw [htokens] at hi hp hds ⊢
  obtain ⟨front, c, w, l, back, rfl, htake, rfl⟩ := exists_lexeme hp
  obtain ⟨hfront, ⟨-, hread, -⟩, -⟩ := spells_append.mp hspells
  rw [List.append_nil] at hfront
  have hsplit : source = textOf front ++ c :: (w ++ textOf back) := by
    rw [← htext, textOf_append]
    rfl
  have hoffset : (l.token (Position.start.advance (textOf front)) c w).start.offset =
      (textOf front).length := (advance_offset _ _).trans (Nat.zero_add _)
  have hname : l.kind.isName = true := by
    rw [token_kind] at hkind
    rw [hkind]
    rfl
  have hblank : isBlank c = false := isBlank_of_startsWord (word_of_read hread hname).1
  have hstart : ∀ d ∈ ds, d.start ≤ (textOf front).length := by
    intro d hd
    obtain ⟨t, ht, _, hspans⟩ := directives_spans hds d hd
    have heq := hspans.start
    rw [htake] at ht
    have hlt := token_start_lt ht
    rw [show Position.start.offset = 0 from rfl] at hlt
    omega
  have hdrop : source.drop (textOf front).length = c :: (w ++ textOf back) := by
    rw [hsplit, List.drop_left]
  have hkeeps : CleanCut source ds (tokensOf Position.start front)
      (l.token (Position.start.advance (textOf front)) c w) →
      BodyKeeps (functionBody source ds) (Text.trimEnd (c :: (w ++ textOf back)))
        (keptTokens source ds (tokensOf Position.start front)) := by
    intro hclean
    obtain ⟨s', hs', hsame⟩ := scan_front hfront hsplit (fun d hd => by
      have := hstart d hd
      rw [hsplit, List.length_append]
      omega) hclean
    have hkept := hclean.param
    rw [hoffset] at hkept
    exact ⟨_, s', functionBody_eq hsplit hblank hlies hstart hkept, hs', hsame⟩
  refine ⟨i, _, ds, hi, hp, hds, hdirectives, ?_⟩
  rw [htake, hoffset, hdrop, hbody]
  refine ⟨fun hkept => ?_, hkeeps, fun hclean halone => ?_,
    fun t ht => not_holds_of_mem_keptTokens ht⟩
  · rw [functionBody_eq hsplit hblank hlies hstart hkept]
    exact List.suffix_append _ _
  · obtain ⟨head, s', hbody', hs', hsame⟩ := hkeeps hclean
    exact ⟨head, s', hbody', hs', hsame.trans (spelling_keptTokens halone)⟩

/-- Lines of an import and of a requirement cut out behind a comment and an attribute. -/
theorem extract_keeps_attribute :
    ∃ sc e ws, ofSource none "<# a
b #>
using namespace X
[CmdletBinding()]
#Requires -Version 5.1
param($x) -1
".toList = .ok sc ∧ sc.extract Table.empty "Get-Foo".toList = .ok (e, ws) ∧
      ∃ i p ds, paramIndex? sc.tokens = some i ∧ sc.tokens[i]? = some p ∧
        sc.directives i sc.tokens = .ok ds ∧ ds.length = 2 ∧
        BodyKeeps e.body (Text.trimEnd (sc.source.drop p.start.offset))
          (outsideTokens ds (sc.tokens.take i)) := by
  have hrun : ((ofSource none "<# a
b #>
using namespace X
[CmdletBinding()]
#Requires -Version 5.1
param($x) -1
".toList).toOption.any fun sc =>
      (sc.extract Table.empty "Get-Foo".toList).toOption.any fun _ =>
        (paramIndex? sc.tokens).any fun i => sc.tokens[i]?.any fun p =>
          (sc.directives i sc.tokens).toOption.any fun ds =>
            ds.length = 2 ∧ CleanCut sc.source ds (sc.tokens.take i) p ∧
              ∀ t ∈ sc.tokens.take i, isCut sc.source ds t.start.offset = true →
                t.kind = .newline ∨ ds.any (·.holds t) = true) = true := by
    decide +kernel
  -- from here on only what has been run matters, not the text
  generalize "<# a
b #>
using namespace X
[CmdletBinding()]
#Requires -Version 5.1
param($x) -1
".toList = source at hrun ⊢
  obtain ⟨sc, hsource, hrun⟩ := toOption_any.mp hrun
  obtain ⟨⟨e, ws⟩, hextract, hrun⟩ := toOption_any.mp hrun
  obtain ⟨i, p, ds, hi, hp, hds, -, -, -, hkeeps, -⟩ := extract_keeps hsource hextract
  obtain ⟨s, -, rfl⟩ := ofSource_eq_ok hsource
  simp only [hi, hp, hds, Except.toOption, Option.any_some, decide_eq_true_eq] at hrun
  obtain ⟨hlength, hclean, halone⟩ := hrun
  exact ⟨_, e, ws, hsource, hextract, i, p, ds, hi, hp, hds, hlength, hkeeps hclean halone⟩

/-- Whether the body keeps all tokens in front of the parameter block that belong to no
    directive, and all of the source from the block on. -/
def LosesNothing (known : KnownAliases) (filename : Option Text) (name source : Text) : Prop :=
  ∀ sc e ws i p ds, ofSource filename source = .ok sc →
    sc.extract known name = .ok (e, ws) → paramIndex? sc.tokens = some i →
    sc.tokens[i]? = some p → sc.directives i sc.tokens = .ok ds →
    BodyKeeps e.body (Text.trimEnd (source.drop p.start.offset))
      (outsideTokens ds (sc.tokens.take i))

theorem not_losesNothing {known : KnownAliases} {filename : Option Text} {name source : Text}
    (h : ((ofSource filename source).toOption.any fun sc =>
      (sc.extract known name).toOption.any fun r => (paramIndex? sc.tokens).any fun i =>
        sc.tokens[i]?.any fun p => (sc.directives i sc.tokens).toOption.any fun ds =>
          ¬ BodyKeeps r.1.body (Text.trimEnd (source.drop p.start.offset))
            (outsideTokens ds (sc.tokens.take i))) = true) :
    ¬ LosesNothing known filename name source := by
  intro hall
  obtain ⟨sc, hsource, h⟩ := toOption_any.mp h
  obtain ⟨⟨e, ws⟩, hextract, h⟩ := toOption_any.mp h
  obtain ⟨i, hi, h⟩ := (Option.any_eq_true ..).mp h
  obtain ⟨p, hp, h⟩ := (Option.any_eq_true ..).mp h
  obtain ⟨ds, hds, h⟩ := toOption_any.mp h
  exact of_decide_eq_true h (hall sc e ws i p ds hsource hextract hi hp hds)

/-- The line of a directive takes with it an attribute, the parameter block, a part of a
    comment, or what keeps a dash from being a sign. -/
theorem extract_loses :
    ¬ LosesNothing Table.empty none "Get-Foo" "[A()] #Requires -Version 5.1\nparam()" ∧
    ¬ LosesNothing Table.empty none "Get-Foo" "using namespace X; param($x)" ∧
    ¬ LosesNothing Table.empty none "Get-Foo" "<# a\nb #> using namespace X\nparam()" ∧
    ¬ LosesNothing Table.empty none "Get-Foo" "using namespace X; y \x60\n-1\nparam()" := by
  refine ⟨?_, ?_, ?_, ?_⟩ <;> exact not_losesNothing (by decide +kernel)

end Script
end ScriptModule
