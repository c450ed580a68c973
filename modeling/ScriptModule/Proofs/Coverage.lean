/-
  ScriptModule/Proofs/Coverage.lean
  =================================
  **Statements cover their source.**  The statements of a script stand in order on
  stretches of the source that do not overlap, each has the text, lines and columns of its
  stretch, and a token outside of all stretches ends a line, separates statements or is a
  comment.
-/
import ScriptModule.Proofs.Grammar
import ScriptModule.Proofs.Tiling
import ScriptModule.Proofs.Wrapping

namespace ScriptModule

open Lexeme

/-! ### Where declarations and imports end -/

namespace Grammar

open Script

theorem isSignificant_of_isCloser {t : Token} (h : t.kind.isCloser = true) :
    isSignificant t = true := by
  cases hkind : t.kind <;> simp_all [isSignificant, TokenKind.isCloser]

theorem isSignificant_of_isOpener {t : Token} (h : t.kind.isOpener = true) :
    isSignificant t = true := by
  cases hkind : t.kind <;> simp_all [isSignificant, TokenKind.isOpener, TokenKind.closer?]

/-- An expression without significant tokens takes comments and line ends only. -/
theorem Expression.of_no_significant {before : Option TokenKind} {ts es rest : List Token}
    (h : Expression before ts es rest) (hnone : es.filter isSignificant = []) :
    ∃ tail, ts = tail ++ rest ∧ ∀ t ∈ tail, isSignificant t = false := by
  induction h with
  | atEnd => exact ⟨[], rfl, by simp⟩
  | stop => exact ⟨[], rfl, by simp⟩
  | group _ hopener =>
    rw [List.filter_cons, if_pos (isSignificant_of_isOpener hopener)] at hnone
    cases hnone
  | @token _ t _ _ _ _ _ _ ih =>
    rw [List.filter_eq_nil_iff] at hnone
    have ht : isSignificant t = false := by simpa using hnone t List.mem_cons_self
    obtain ⟨tail, rfl, htail⟩ := ih (List.filter_eq_nil_iff.mpr fun u hu =>
      hnone u (List.mem_cons_of_mem _ hu))
    refine ⟨t :: tail, rfl, ?_⟩
    intro u hu
    rcases List.mem_cons.mp hu with rfl | hu
    · exact ht
    · exact htail u hu

theorem Expression.subset {before : Option TokenKind} {ts es rest : List Token}
    (h : Expression before ts es rest) : es ⊆ ts := by
  induction h with
  | atEnd => exact List.Subset.refl _
  | stop => exact List.nil_subset _
  | @group _ t close ts _ es _ _ _ hend _ ih =>
    have hmid := (groupEnd?_suffix hend).subset
    apply List.cons_subset_cons
    apply List.cons_subset.mpr
    have hbehind := List.Subset.trans (List.subset_cons_self close _) hmid
    exact ⟨hmid List.mem_cons_self, List.Subset.trans ih hbehind⟩
  | @token _ t _ _ _ _ _ _ ih => exact List.cons_subset_cons t ih

theorem Expression.ne_nil {before : Option TokenKind} {ts es rest : List Token}
    (h : Expression before ts es rest) (hsignificant : es.filter isSignificant ≠ []) :
    ts ≠ [] := by
  rintro rfl
  cases h
  exact hsignificant rfl

/-- The last token that counts stays the last one without the token in front. -/
theorem getLast?_filter_tail {p : Token → Bool} {t last : Token} {ts : List Token}
    (hlast : ((t :: ts).filter p).getLast? = some last) (hsome : ts.filter p ≠ []) :
    (ts.filter p).getLast? = some last := by
  rw [List.filter_cons] at hlast
  split at hlast
  · rwa [← List.singleton_append, List.getLast?_append_of_ne_nil _ hsome] at hlast
  · exact hlast

/-- Behind its last significant token an expression takes comments and line ends only, and
    what counts of it stands in front. -/
theorem Expression.reach {before : Option TokenKind} {ts es rest : List Token} {last : Token}
    (h : Expression before ts es rest) (hlast : (es.filter isSignificant).getLast? = some last) :
    ∃ us tail, ts = us ++ last :: (tail ++ rest) ∧ es.filter isSignificant ⊆ us ++ [last] ∧
      ∀ t ∈ tail, isSignificant t = false := by
  induction h with
  | atEnd => cases hlast
  | stop => cases hlast
  | @group _ t close ts mid es rest _ hopener hend hrest ih =>
    have hcloser := isSignificant_of_isCloser (groupEnd?_isCloser hend)
    obtain ⟨inner, rfl⟩ := groupEnd?_suffix hend
    rw [List.filter_cons, if_pos (isSignificant_of_isOpener hopener), List.filter_cons,
      if_pos hcloser, List.getLast?_cons_cons] at hlast
    rw [List.filter_cons, if_pos (isSignificant_of_isOpener hopener), List.filter_cons,
      if_pos hcloser]
    cases hsome : es.filter isSignificant with
    | nil =>
      obtain ⟨tail, rfl, htail⟩ := hrest.of_no_significant hsome
      rw [hsome] at hlast
      obtain rfl : close = last := by simpa using hlast
      exact ⟨t :: inner, tail, rfl, by simp, htail⟩
    | cons u us =>
      rw [hsome, List.getLast?_cons_cons, ← hsome] at hlast
      obtain ⟨front, tail, rfl, hsub, htail⟩ := ih hlast
      refine ⟨t :: (inner ++ close :: front), tail, by simp, ?_, htail⟩
      rw [← hsome, List.cons_append, List.append_assoc]
      apply List.cons_subset_cons
      apply List.cons_subset.mpr
      refine ⟨by simp, List.Subset.trans hsub ?_⟩
      exact List.Subset.trans (List.subset_cons_self close _) (List.subset_append_right inner _)
  | @token _ t ts es rest _ _ hrest ih =>
    cases hsome : es.filter isSignificant with
    | nil =>
      by_cases ht : isSignificant t = true
      · obtain ⟨tail, rfl, htail⟩ := hrest.of_no_significant hsome
        rw [List.filter_cons, if_pos ht, hsome] at hlast
        rw [List.filter_cons, if_pos ht, hsome]
        obtain rfl : t = last := by simpa using hlast
        exact ⟨[], tail, rfl, List.Subset.refl _, htail⟩
      · rw [List.filter_cons, if_neg ht, hsome] at hlast
        cases hlast
    | cons u us =>
      have hsame := getLast?_filter_tail hlast (by simp [hsome])
      obtain ⟨front, tail, rfl, hsub, htail⟩ := ih hsame
      refine ⟨t :: front, tail, rfl, ?_, htail⟩
      rw [List.filter_cons]
      split
      · exact List.cons_subset_cons t hsub
      · exact List.subset_cons_of_subset t hsub

theorem Expression.extent {before : Option TokenKind} {ts es rest : List Token} {last : Token}
    (h : Expression before ts es rest) (hlast : (es.filter isSignificant).getLast? = some last) :
    ∃ tail, last :: (tail ++ rest) <:+ ts ∧ ∀ t ∈ tail, isSignificant t = false := by
  obtain ⟨us, tail, rfl, -, htail⟩ := h.reach hlast
  exact ⟨tail, List.suffix_append us _, htail⟩

/-- Behind its last token a declaration takes comments and line ends only. -/
theorem Declaration.extent {sc : Script} {ts rest : List Token} {content : Content}
    {last : Token} (h : Declaration sc ts content last rest) :
    ∃ tail, last :: (tail ++ rest) <:+ ts ∧ ∀ t ∈ tail, isSignificant t = false := by
  cases h with
  | enumeration hattributes _ hname hunder hblank _ hmembers =>
    have hhead := (List.suffix_cons _ _).trans hattributes.suffix
    have hbody := (List.suffix_cons _ _).trans (cons_suffix_of_dropWhile hblank)
    have hinner := hmembers.suffix.trans hbody
    exact ⟨[], hinner.trans (hunder.suffix.trans (hname.suffix.trans hhead)), by simp⟩
  | classType hattributes _ hname hbases hbody =>
    have hhead := (List.suffix_cons _ _).trans hattributes.suffix
    exact ⟨[], hbody.suffix.trans (hbases.suffix.trans (hname.suffix.trans hhead)), by simp⟩
  | function hattributes _ hname hparameters hbody =>
    have hhead := (List.suffix_cons _ _).trans hattributes.suffix
    exact ⟨[], hbody.suffix.trans (hparameters.suffix.trans (hname.suffix.trans hhead)), by simp⟩
  | @assignment r _ _ more _ _ start _ hattributes _ _ hexpression hsignificant =>
    have hlast := @List.getLast?_cons _ more start
    rw [← hsignificant] at hlast
    obtain ⟨tail, hsuffix, htail⟩ := hexpression.extent hlast
    have hbehind : r <:+ ts :=
      (List.suffix_cons _ r).trans ((List.suffix_cons _ _).trans hattributes.suffix)
    exact ⟨tail, (hsuffix.trans (skipBlank_suffix r)).trans hbehind, htail⟩

end Grammar

/-! ### Requirement comments -/

theorem advance_of_newline_not_mem {t : Text} (h : '\n' ∉ t) (p : Position) :
    p.advance t = ⟨p.offset + t.length, p.line, p.column + t.length⟩ := by
  induction t generalizing p with
  | nil => rfl
  | cons c t ih =>
    simp only [List.mem_cons, not_or] at h
    have hstep : p.advance (c :: t) = (p.next c).advance t := rfl
    rw [hstep, ih h.2, next_eq, if_neg (Ne.symm h.1)]
    simp only [List.length_cons, Position.mk.injEq, true_and]
    omega

namespace Lexeme

theorem wordKind_ne_comment (t : Text) : wordKind t ≠ .comment := by
  intro hkind
  have hname := isName_wordKind t
  rw [hkind] at hname
  cases hname

/-- A comment goes to the end of its line, or starts with an angle. -/
theorem comment_of_read {sign : Bool} {c : Char} {r : Text} {l : Lexeme}
    (h : read sign c r = .ok l) (hkind : l.kind = .comment) :
    (c = '#' ∧ l.extra = lineCommentLength r) ∨ c = '<' := by
  cases reads_of_read h with
  | lineComment => exact .inl ⟨rfl, rfl⟩
  | blockComment => exact .inr rfl
  | punctuation _ hp =>
    have hmark := kind_punctuation? (hp.trans (congrArg some hkind))
    exact absurd hmark (by decide)
  | dollar h => rcases kind_dollar h with h | h | h <;> cases h.symm.trans hkind
  | atSign h => rcases kind_atSign h with h | h | h | h | h <;> cases h.symm.trans hkind
  | dash => rcases kind_dash sign r with ⟨h, -⟩ | h | h <;> cases h.symm.trans hkind
  | plain => exact absurd hkind (kind_plain_ne rfl (by decide) (by decide) c r)
  | singleQuoted | doubleQuoted | doubleColon | colon => cases hkind

end Lexeme

/-- Whether a token ends on the line it starts on, behind all of its text. -/
structure Token.IsWholeLine (t : Token) : Prop where
  line : t.stop.line = t.start.line
  column : t.stop.column = t.start.column + t.text.length

theorem head_of_isRequirement {t : Token} (h : t.isRequirement = true) :
    t.text.head? ≠ some '<' := by
  simp only [Token.isRequirement, Bool.and_eq_true, beq_iff_eq] at h
  have hfold := h.1.2
  intro hhead
  obtain ⟨r, hr⟩ := List.head?_eq_some_iff.mp hhead
  rw [hr] at hfold
  cases hfold

theorem requirement_isWholeLine {l : Lexeme} {sign : Bool} {c : Char} {w rest : Text}
    (hfits : (Piece.lexeme c w l).Fits sign rest) (hcr : '\r' ∉ c :: w) {place : Position}
    (h : (l.token place c w).isRequirement = true) : (l.token place c w).IsWholeLine := by
  obtain ⟨-, hread, hlen⟩ := hfits
  have hkind : l.kind = .comment := Grammar.comment_of_isRequirement h
  have htext : (l.token place c w).text = c :: w :=
    (text_eq_shown hlen c).trans (shown_eq_self hcr l.kind)
  have hline : '\n' ∉ c :: w := by
    rcases comment_of_read hread hkind with ⟨rfl, hextra⟩ | rfl
    · have hrun := runLength_append_eq.mp (hextra.symm.trans hlen.symm)
      intro hmem
      rcases List.mem_cons.mp hmem with hnew | hmem
      · exact absurd hnew (by decide)
      · have hgo := hrun.1 '\n' hmem
        simp at hgo
    · exact absurd (by rw [htext]; rfl) (head_of_isRequirement h)
  have hstop := token_stop hlen place c
  have hstart : (l.token place c w).start = place := rfl
  rw [advance_of_newline_not_mem hline] at hstop
  constructor
  · rw [hstop, hstart]
  · rw [hstop, hstart, htext]

theorem tokensOf_isWholeLine {before : Option TokenKind} {ps : List Piece} {rest : Text}
    {place : Position} (h : Spells before rest ps) (hcr : '\r' ∉ textOf ps) :
    ∀ t ∈ tokensOf place ps, t.isRequirement = true → t.IsWholeLine := by
  intro t ht hrequirement
  obtain ⟨i, hi⟩ := List.mem_iff_getElem?.mp ht
  obtain ⟨front, c, w, l, back, rfl, -, rfl⟩ := exists_lexeme hi
  refine requirement_isWholeLine (spells_append.mp h).2.1 (fun hmem => hcr ?_) hrequirement
  rw [textOf_append, textOf_cons]
  exact List.mem_append_right _ (List.mem_append_left _ hmem)

theorem scanFile_eq_ok {file : Option Text} {source : Text} {s : Scan} :
    scanFile file source = .ok s ↔ scan source = .ok s := by
  unfold scanFile
  rcases scan source with e | r <;> simp [Except.mapError]

/-- A requirement comment is read if the text behind its mark is scanned into options. -/
theorem requirement_iff {sc : Script} {t : Token} {st : Statement} :
    sc.requirement t = .ok st ↔ ∃ args req,
      scan (t.text.drop Script.requirementMarkLength) = .ok args ∧
      Script.requirementOptions {} args.tokens = .ok req ∧ st = {
        content := .requirement req
        filename := sc.filename
        span := some ⟨t.start.line, t.start.column, t.start.line, t.start.column + t.text.length⟩
        text := t.text } := by
  unfold Script.requirement
  constructor
  · intro h
    obtain ⟨args, hargs, h⟩ := bind_eq_ok.mp h
    refine ⟨args, ?_⟩
    rcases hoptions : Script.requirementOptions {} args.tokens with p | req
    · simp only [hoptions] at h
      cases h
    · simp only [hoptions] at h
      exact ⟨req, scanFile_eq_ok.mp hargs, rfl, (Except.ok.inj h).symm⟩
  · rintro ⟨args, req, hargs, hoptions, rfl⟩
    refine bind_eq_ok.mpr ⟨args, scanFile_eq_ok.mpr hargs, ?_⟩
    simp only [hoptions]

/-! ### Cuts -/

/-- Kinds of tokens that no statement takes in. -/
def TokenKind.isIdle (k : TokenKind) : Bool := k == .newline || k == .semicolon || k == .comment

/-- Tokens cut into those of each statement and idle ones between them. -/
inductive Cut (sc : Script) : List Token → List Statement → Prop
  | nil : Cut sc [] []
  | idle {t : Token} {ts : List Token} {sts : List Statement} :
      t.kind.isIdle = true → Cut sc ts sts → Cut sc (t :: ts) sts
  | statement {first last : Token} {used ts : List Token} {st : Statement}
      {sts : List Statement} :
      used.head? = some first → used.getLast? = some last →
      st.text = sc.slice first last → st.span = some (Script.span first last) →
      Cut sc ts sts → Cut sc (used ++ ts) (st :: sts)

theorem Cut.append_idle {sc : Script} {tail ts : List Token} {sts : List Statement}
    (htail : ∀ t ∈ tail, Script.isSignificant t = false) (h : Cut sc ts sts) :
    Cut sc (tail ++ ts) sts := by
  induction tail with
  | nil => exact h
  | cons t tail ih =>
    rw [List.forall_mem_cons] at htail
    apply Cut.idle _ (ih htail.2)
    have ht := htail.1
    cases hkind : t.kind <;> simp_all [Script.isSignificant, TokenKind.isIdle]

theorem Cut.stated {sc : Script} {first last : Token} {ts tail rest : List Token}
    {sts : List Statement} (content : Content) (hsuffix : last :: (tail ++ rest) <:+ first :: ts)
    (htail : ∀ t ∈ tail, Script.isSignificant t = false) (h : Cut sc rest sts) :
    Cut sc (first :: ts) (Grammar.stated sc content first last :: sts) := by
  obtain ⟨front, hfront⟩ := hsuffix
  have hused : first :: ts = (front ++ [last]) ++ (tail ++ rest) := by simp [← hfront]
  have hhead : (front ++ [last]).head? = some first := by
    have hall := congrArg List.head? hused
    cases front with
    | nil => simpa using hall.symm
    | cons u us => simpa using hall.symm
  rw [hused]
  exact .statement hhead List.getLast?_concat rfl rfl (h.append_idle htail)

theorem isIdle_of_isSeparator {t : Token} (h : Grammar.isSeparator t = true) :
    t.kind.isIdle = true := by
  simp only [Grammar.isSeparator, Token.isRemark, Bool.or_eq_true, Bool.and_eq_true] at h
  simp only [TokenKind.isIdle, Bool.or_eq_true]
  exact h.imp id And.left

theorem Grammar.Statements.cut {sc : Script} {ts : List Token} {sts : List Statement}
    (h : Grammar.Statements sc ts sts)
    (hwhole : ∀ t ∈ ts, t.isRequirement = true →
      t.IsWholeLine ∧ t.text = sc.slice t t) : Cut sc ts sts := by
  have hrest : ∀ {us vs : List Token}, us <:+ vs →
      (∀ t ∈ vs, t.isRequirement = true → t.IsWholeLine ∧ t.text = sc.slice t t) →
      ∀ t ∈ us, t.isRequirement = true → t.IsWholeLine ∧ t.text = sc.slice t t :=
    fun hsuffix hall t ht => hall t (hsuffix.subset ht)
  induction h with
  | nil => exact .nil
  | separator hseparator _ ih =>
    exact .idle (isIdle_of_isSeparator hseparator) (ih (hrest (List.suffix_cons _ _) hwhole))
  | @requirement t ts st sts hrequirement hparse _ ih =>
    obtain ⟨hline, htext⟩ := hwhole t List.mem_cons_self hrequirement
    obtain ⟨-, req, -, -, rfl⟩ := requirement_iff.mp hparse
    have hspan : some (⟨t.start.line, t.start.column, t.start.line,
        t.start.column + t.text.length⟩ : Span) = some (Script.span t t) := by
      simp only [Script.span, hline.line, hline.column, Int.natCast_add]
    exact @Cut.statement sc t t [t] ts _ sts rfl rfl htext hspan
      (ih (hrest (List.suffix_cons _ _) hwhole))
  | @importing t last ts rest i sts _ himport _ ih =>
    have hsuffix : last :: ([] ++ rest) <:+ t :: ts := himport.extent.trans (List.suffix_cons t ts)
    have hbehind := (List.suffix_cons last rest).trans hsuffix
    exact .stated _ hsuffix (by simp) (ih (hrest hbehind hwhole))
  | @declaration t last ts rest content sts hdeclaration _ ih =>
    obtain ⟨tail, hsuffix, htail⟩ := hdeclaration.extent
    have hbehind := ((List.suffix_append tail rest).trans (List.suffix_cons last _)).trans hsuffix
    exact .stated _ hsuffix htail (ih (hrest hbehind hwhole))

/-! ### Stretches of statements -/

/-- The lines and columns of a stretch of a source; the end is exclusive. -/
def spanAt (source : Text) (r : Nat × Nat) : Span :=
  ⟨lineAt source r.1, columnAt source r.1, lineAt source r.2, columnAt source r.2⟩

/-- How statements lie in their source, each on its stretch of offsets. -/
structure Coverage (source : Text) (ts : List Token) (sts : List Statement)
    (stretches : List (Nat × Nat)) : Prop where
  statements : List.Forall₂ (fun st r => st.text = source.extract r.1 r.2 ∧
    st.span = some (spanAt source r)) sts stretches
  proper : ∀ r ∈ stretches, r.1 < r.2
  ordered : stretches.Pairwise fun a b => a.2 ≤ b.1
  starts : ∀ r ∈ stretches, ∃ t ∈ ts, t.start.offset = r.1
  stops : ∀ r ∈ stretches, ∃ t ∈ ts, t.stop.offset = r.2
  outside : ∀ t ∈ ts, (∃ r ∈ stretches, r.1 ≤ t.start.offset ∧ t.stop.offset ≤ r.2) ∨
    t.kind = .newline ∨ t.kind = .semicolon ∨ t.kind = .comment

/-- Whether tokens stand one behind the other. -/
def InOrder (ts : List Token) : Prop :=
  ts.Pairwise fun a b => a.stop.offset ≤ b.start.offset

theorem span_eq_spanAt {source : Text} {first last : Token} (hfirst : first.StandsIn source)
    (hlast : last.StandsIn source) :
    Script.span first last = spanAt source (first.start.offset, last.stop.offset) := by
  have hstart := hfirst.start
  have hstop := hlast.stop
  simp only [placeAt] at hstart hstop
  rw [Script.span, hstart, hstop]
  rfl

/-- Tokens in order lie between the start of the first and the end of the last. -/
theorem within_of_inOrder {source : Text} {used : List Token} {first last : Token}
    (horder : InOrder used) (hstands : ∀ t ∈ used, t.StandsIn source)
    (hfirst : used.head? = some first) (hlast : used.getLast? = some last) :
    ∀ t ∈ used, first.start.offset ≤ t.start.offset ∧ t.stop.offset ≤ last.stop.offset := by
  obtain ⟨more, rfl⟩ := List.head?_eq_some_iff.mp hfirst
  obtain ⟨front, hfront⟩ := List.getLast?_eq_some_iff.mp hlast
  intro t ht
  have hproper := (hstands t ht).proper
  constructor
  · rcases List.mem_cons.mp ht with rfl | hmore
    · exact Nat.le_refl _
    · have hbehind := List.rel_of_pairwise_cons horder hmore
      have := (hstands first List.mem_cons_self).proper
      omega
  · rw [hfront] at ht horder hstands
    rcases List.mem_append.mp ht with hbefore | hsame
    · have hbehind := (List.pairwise_append.mp horder).2.2 t hbefore last (by simp)
      have := (hstands last (by simp)).proper
      omega
    · rw [List.mem_singleton.mp hsame]

section

variable {source : Text} {ts : List Token} {sts : List Statement} {stretches : List (Nat × Nat)}

/-- In front of what is covered one more token may stand that no statement takes in. -/
theorem Coverage.idle (h : Coverage source ts sts stretches) {t : Token}
    (hidle : t.kind.isIdle = true) : Coverage source (t :: ts) sts stretches := by
  refine ⟨h.statements, h.proper, h.ordered, ?_, ?_, ?_⟩
  · intro r hr
    obtain ⟨u, hu, heq⟩ := h.starts r hr
    exact ⟨u, List.mem_cons_of_mem _ hu, heq⟩
  · intro r hr
    obtain ⟨u, hu, heq⟩ := h.stops r hr
    exact ⟨u, List.mem_cons_of_mem _ hu, heq⟩
  · intro u hu
    rcases List.mem_cons.mp hu with rfl | hu
    · simp only [TokenKind.isIdle, Bool.or_eq_true, beq_iff_eq, or_assoc] at hidle
      exact .inr hidle
    · exact h.outside u hu

/-- In front of what is covered one more statement may stand, with its tokens. -/
theorem Coverage.statement (h : Coverage source ts sts stretches) {used : List Token}
    {first last : Token} {st : Statement} (horder : InOrder (used ++ ts))
    (hstands : ∀ t ∈ used, t.StandsIn source) (hfirst : used.head? = some first)
    (hlast : used.getLast? = some last)
    (htext : st.text = source.extract first.start.offset last.stop.offset)
    (hspan : st.span = some (Script.span first last)) :
    Coverage source (used ++ ts) (st :: sts)
      ((first.start.offset, last.stop.offset) :: stretches) := by
  obtain ⟨hused, -, hbetween⟩ := List.pairwise_append.mp horder
  have hwithin := within_of_inOrder hused hstands hfirst hlast
  have hfirstmem := List.mem_of_mem_head? hfirst
  have hlastmem := List.mem_of_getLast? hlast
  refine ⟨?_, ?_, ?_, ?_, ?_, ?_⟩
  · apply List.Forall₂.cons _ h.statements
    refine ⟨htext, ?_⟩
    rw [hspan, span_eq_spanAt (hstands first hfirstmem) (hstands last hlastmem)]
  · rw [List.forall_mem_cons]
    have hproper := (hstands first hfirstmem).proper
    exact ⟨Nat.lt_of_lt_of_le hproper (hwithin first hfirstmem).2, h.proper⟩
  · apply List.Pairwise.cons _ h.ordered
    intro r hr
    obtain ⟨u, hu, heq⟩ := h.starts r hr
    rw [← heq]
    exact hbetween last hlastmem u hu
  · rw [List.forall_mem_cons]
    refine ⟨⟨first, List.mem_append_left _ hfirstmem, rfl⟩, ?_⟩
    intro r hr
    obtain ⟨u, hu, heq⟩ := h.starts r hr
    exact ⟨u, List.mem_append_right _ hu, heq⟩
  · rw [List.forall_mem_cons]
    refine ⟨⟨last, List.mem_append_left _ hlastmem, rfl⟩, ?_⟩
    intro r hr
    obtain ⟨u, hu, heq⟩ := h.stops r hr
    exact ⟨u, List.mem_append_right _ hu, heq⟩
  · intro u hu
    rcases List.mem_append.mp hu with hu | hu
    · exact .inl ⟨_, List.mem_cons_self, hwithin u hu⟩
    · refine (h.outside u hu).imp ?_ id
      rintro ⟨r, hr, hin⟩
      exact ⟨r, List.mem_cons_of_mem _ hr, hin⟩

end

theorem Cut.coverage {sc : Script} {ts : List Token} {sts : List Statement}
    (h : Cut sc ts sts) (horder : InOrder ts) (hstands : ∀ t ∈ ts, t.StandsIn sc.source) :
    ∃ stretches, Coverage sc.source ts sts stretches := by
  induction h with
  | nil =>
    refine ⟨[], .nil, ?_, .nil, ?_, ?_, ?_⟩ <;> simp
  | @idle t ts sts hidle _ ih =>
    rw [List.forall_mem_cons] at hstands
    obtain ⟨stretches, hcover⟩ := ih (List.Pairwise.of_cons horder) hstands.2
    exact ⟨stretches, hcover.idle hidle⟩
  | @statement first last used ts st sts hfirst hlast htext hspan _ ih =>
    rw [List.forall_mem_append] at hstands
    obtain ⟨stretches, hcover⟩ := ih (List.pairwise_append.mp horder).2.1 hstands.2
    exact ⟨_, hcover.statement horder hstands.1 hfirst hlast htext hspan⟩

/-! ### Classified sources -/

theorem classify_iff {filename : Option Text} {source : Text} {sts : List Statement} :
    Script.classify filename source = .ok sts ↔ ∃ s, scan source = .ok s ∧
      Grammar.Statements ⟨filename, source, s.tokens, s.stop⟩ s.tokens sts := by
  constructor
  · intro h
    unfold Script.classify at h
    split at h
    · cases h
    · next sc hsource =>
      obtain ⟨s, hscan, rfl⟩ := Script.ofSource_eq_ok hsource
      exact ⟨s, hscan, Grammar.statementsFrom_iff.mp h⟩
  · rintro ⟨s, hscan, hstatements⟩
    rw [Script.classify_eq filename hscan]
    exact Grammar.statementsFrom_iff.mpr hstatements

/-- The statements of a source without carriage returns cover it, line ends, semicolons and
    comments aside. -/
theorem classify_coverage {filename : Option Text} {source : Text} {sts : List Statement}
    (h : Script.classify filename source = .ok sts) (hcr : '\r' ∉ source) :
    ∃ s stretches, scan source = .ok s ∧ Coverage source s.tokens sts stretches := by
  obtain ⟨s, hscan, hstatements⟩ := classify_iff.mp h
  obtain ⟨ps, rfl, hspells, htokens⟩ := exists_pieces hscan
  have hstands : ∀ t ∈ s.tokens, t.StandsIn (textOf ps) := by
    rw [htokens]
    exact @tokensOf_standsIn [] _ _ hspells
  have horder : InOrder s.tokens := by
    rw [htokens]
    exact tokensOf_ordered hspells _
  have hwhole : ∀ t ∈ s.tokens, t.isRequirement = true → t.IsWholeLine ∧
      t.text = (textOf ps).extract t.start.offset t.stop.offset := by
    intro t ht hrequirement
    refine ⟨tokensOf_isWholeLine hspells hcr t (htokens ▸ ht) hrequirement, ?_⟩
    rw [(hstands t ht).text]
    apply shown_eq_self
    intro hmem
    exact hcr (List.mem_of_mem_drop (List.mem_of_mem_take hmem))
  have hcut := hstatements.cut hwhole
  obtain ⟨stretches, hcover⟩ := hcut.coverage horder hstands
  exact ⟨s, stretches, hscan, hcover⟩

/-- A requirement, an import, an attribute on a line of its own, a string of two lines, a
    pipe at the end of a line, and comments and semicolons between them. -/
theorem classify_coverage_lines :
    ∃ source : Text, source = "#Requires -Version 5
using module A; # b
[B()] # c
enum C \x7b D = 1 # d
\x7d;;
$g = 'h
i' |
  k # l
".toList ∧ '\r' ∉ source ∧ ∃ sts, Script.classify none source = .ok sts ∧ sts.length = 4 ∧
      ∃ s stretches, scan source = .ok s ∧ Coverage source s.tokens sts stretches := by
  refine ⟨_, rfl, by decide +kernel, ?_⟩
  have hrun : (Script.classify none "#Requires -Version 5
using module A; # b
[B()] # c
enum C \x7b D = 1 # d
\x7d;;
$g = 'h
i' |
  k # l
".toList).toOption.any (fun sts => sts.length = 4) = true := by
    decide +kernel
  obtain ⟨sts, hclassify, hlength⟩ := toOption_any.mp hrun
  exact ⟨sts, hclassify, of_decide_eq_true hlength,
    classify_coverage hclassify (by decide +kernel)⟩

end ScriptModule
