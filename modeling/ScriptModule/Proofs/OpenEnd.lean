/-
  ScriptModule/Proofs/OpenEnd.lean
  ================================
  **Assignments at the end of a source.**  Below a source that ends in an assignment, another
  one keeps its own statements unless two things come together: the last token of the first
  is of a kind that continues its line, as an increment is like any operator, and the second
  starts with something an expression can take in.
-/
import ScriptModule.Proofs.Composition
import ScriptModule.Proofs.ParserSteps

namespace ScriptModule

open Lexeme Script Grammar

/-! ### Places apart -/

/-- Different offsets of a source have different lines or columns. -/
theorem line_column_injective {source : Text} {m n : Nat} (hlt : m < n)
    (hn : n ≤ source.length) : ¬ (lineAt source m = lineAt source n ∧
      columnAt source m = columnAt source n) := by
  rintro ⟨hline, hcolumn⟩
  obtain ⟨k, rfl⟩ := Nat.exists_eq_add_of_le hlt.le
  have htake : source.take (m + k) = source.take m ++ (source.drop m).take k := List.take_add
  let w := (source.drop m).take k
  have hcount : w.count '\n' = 0 := by
    simp only [lineAt, htake, List.count_append] at hline
    simp only [w]
    omega
  have hfeed : '\n' ∉ w := List.count_eq_zero.mp hcount
  have hlength : w.length = k := by
    simp only [w, List.length_take, List.length_drop]
    omega
  have hplaces := advance_of_newline_not_mem hfeed (Position.start.advance (source.take m))
  rw [← advance_append, ← htake, advance_start, advance_start] at hplaces
  have hcolumns := congrArg Position.column hplaces
  simp only [columnAt, htake] at hcolumn
  simp only [htake] at hcolumns
  omega

/-- Whether a statement starts where a token does. -/
def Statement.StartsWith (st : Statement) (t : Token) : Prop :=
  st.span.map (fun s => (s.startLine, s.startColumn)) = some (↑t.start.line, ↑t.start.column)

theorem startsWith_stated (sc : Script) (content : Content) (first last : Token) :
    (stated sc content first last).StartsWith first := rfl

theorem startsWith_requirement {sc : Script} {t : Token} {st : Statement}
    (h : sc.requirement t = .ok st) : st.StartsWith t := by
  obtain ⟨_, _, -, -, rfl⟩ := requirement_iff.mp h
  rfl

/-- Every statement starts with one of the tokens. -/
theorem Grammar.Statements.startsWith {sc : Script} {ts : List Token} {sts : List Statement}
    (h : Statements sc ts sts) : ∀ st ∈ sts, ∃ t ∈ ts, st.StartsWith t := by
  have hlater : ∀ {us vs : List Token} {xs : List Statement}, us ⊆ vs →
      (∀ st ∈ xs, ∃ t ∈ us, st.StartsWith t) → ∀ st ∈ xs, ∃ t ∈ vs, st.StartsWith t := by
    intro us vs xs hsub hxs st hst
    obtain ⟨t, ht, hstarts⟩ := hxs st hst
    exact ⟨t, hsub ht, hstarts⟩
  induction h with
  | nil => simp
  | separator _ _ ih => exact hlater (List.subset_cons_self _ _) ih
  | requirement _ hparse _ ih =>
    exact List.forall_mem_cons.mpr ⟨⟨_, List.mem_cons_self, startsWith_requirement hparse⟩,
      hlater (List.subset_cons_self _ _) ih⟩
  | @importing t last ts rest _ _ _ himport _ ih =>
    have hrest : rest <:+ t :: ts :=
      (List.suffix_cons last rest).trans (himport.extent.trans (List.suffix_cons t ts))
    exact List.forall_mem_cons.mpr ⟨⟨_, List.mem_cons_self, startsWith_stated _ _ _ _⟩,
      hlater hrest.subset ih⟩
  | @declaration t last ts rest _ _ hdeclaration _ ih =>
    obtain ⟨tail, hextent, -⟩ := hdeclaration.extent
    have hrest : rest <:+ t :: ts :=
      ((List.suffix_append tail rest).trans (List.suffix_cons last _)).trans hextent
    exact List.forall_mem_cons.mpr ⟨⟨_, List.mem_cons_self, startsWith_stated _ _ _ _⟩,
      hlater hrest.subset ih⟩

/-- A token that is no separator starts the first statement. -/
theorem Grammar.Statements.head_startsWith {sc : Script} {t : Token} {ts : List Token}
    {sts : List Statement} (h : Statements sc (t :: ts) sts) (ht : isSeparator t = false) :
    ∃ st more, sts = st :: more ∧ st.StartsWith t := by
  cases h with
  | separator hseparator => simp [hseparator] at ht
  | requirement _ hparse => exact ⟨_, _, rfl, startsWith_requirement hparse⟩
  | importing => exact ⟨_, _, rfl, startsWith_stated _ _ _ _⟩
  | declaration => exact ⟨_, _, rfl, startsWith_stated _ _ _ _⟩

/-- A token that may start a declaration does. -/
theorem Grammar.Statements.of_head_kind {sc : Script} {t : Token} {ts : List Token}
    {st : Statement} {sts : List Statement} (h : Statements sc (t :: ts) (st :: sts))
    (ht : t.kind = .leftBracket ∨ t.kind = .enumWord ∨ t.kind = .classWord ∨
      t.kind = .functionWord ∨ t.kind = .variable) :
    ∃ content last rest, Declaration sc (t :: ts) content last rest ∧
      Statements sc rest sts := by
  cases h with
  | separator hseparator =>
    have hidle := isIdle_of_isSeparator hseparator
    rcases ht with ht | ht | ht | ht | ht <;> simp [ht, TokenKind.isIdle] at hidle
  | requirement hrequirement =>
    have hcomment := comment_of_isRequirement hrequirement
    rcases ht with ht | ht | ht | ht | ht <;> simp [ht] at hcomment
  | importing husing => rcases ht with ht | ht | ht | ht | ht <;> simp [ht] at husing
  | declaration hdeclaration hrest => exact ⟨_, _, _, hdeclaration, hrest⟩

/-- In front of separators only there is no statement, and they say nothing. -/
theorem Grammar.Statements.isSeparator_of_nil {sc : Script} {ts : List Token}
    (h : Statements sc ts []) : ∀ t ∈ ts, isSeparator t = true := by
  generalize hnil : ([] : List Statement) = sts at h
  induction h with
  | nil => simp
  | separator ht _ ih => exact List.forall_mem_cons.mpr ⟨ht, ih hnil⟩
  | requirement => cases hnil
  | importing => cases hnil
  | declaration => cases hnil

theorem statements_separators {sc : Script} {front ts : List Token} {sts : List Statement}
    (hfront : ∀ t ∈ front, isSeparator t = true) :
    Statements sc (front ++ ts) sts ↔ Statements sc ts sts := by
  induction front with
  | nil => rfl
  | cons t front ih =>
    rw [List.forall_mem_cons] at hfront
    rw [← ih hfront.2, ← statementsFrom_iff, ← statementsFrom_iff, List.cons_append,
      statementsFrom_cons, if_pos hfront.1]

/-! ### The last token that counts -/

/-- Whether the last token that is no comment is of a kind that continues its line. -/
def endsOpen (ts : List Token) : Bool := continuesLine (ts.foldl lastKind none)

/-- Whether the first token that is no remark can be taken into an expression. -/
def goesOn (ts : List Token) : Bool :=
  match ts.dropWhile Token.isRemark with
  | t :: _ => !(t.kind == .newline || t.kind == .semicolon)
  | [] => false

/-- What stands in front of a token that is no comment does not matter behind it. -/
theorem foldl_lastKind_eq {ts : List Token} (h : ∃ t ∈ ts, t.kind ≠ .comment)
    (before other : Option TokenKind) : ts.foldl lastKind before = ts.foldl lastKind other := by
  induction ts generalizing before other with
  | nil => simp at h
  | cons t ts ih =>
    rw [List.foldl_cons, List.foldl_cons]
    by_cases hcomment : t.kind = .comment
    · obtain ⟨u, hu, hkind⟩ := h
      rcases List.mem_cons.mp hu with rfl | hu
      · exact absurd hcomment hkind
      · exact ih ⟨u, hu, hkind⟩ _ _
    · rw [lastKind, lastKind, if_neg hcomment, if_neg hcomment]

/-- The last token of an expression that goes to the end of the tokens is the last of them. -/
theorem Grammar.Expression.foldl_lastKind {before : Option TokenKind} {ts es rest : List Token}
    (h : Expression before ts es rest) (hrest : rest = []) :
    ts.foldl lastKind before = es.foldl lastKind before := by
  induction h with
  | atEnd => rfl
  | stop => cases hrest
  | @group before t close ts mid es _ _ _ hend _ ih =>
    have hclose : close.kind ≠ .comment := by
      intro hcomment
      have hcloser := groupEnd?_isCloser hend
      rw [hcomment] at hcloser
      cases hcloser
    obtain ⟨inner, rfl⟩ := groupEnd?_suffix hend
    have hkind : ∀ other, lastKind other close = some close.kind := fun _ => if_neg hclose
    simp only [List.foldl_cons, List.foldl_append, hkind]
    exact ih hrest
  | token _ _ _ ih => exact ih hrest

/-- Behind a line end or a semicolon, separators leave no line open. -/
theorem continuesLine_separators {ts : List Token} (h : ∀ t ∈ ts, isSeparator t = true)
    {before : Option TokenKind} (hbefore : continuesLine before = false) :
    continuesLine (ts.foldl lastKind before) = false := by
  induction ts generalizing before with
  | nil => exact hbefore
  | cons t ts ih =>
    rw [List.forall_mem_cons] at h
    refine ih h.2 ?_
    unfold lastKind
    split
    · exact hbefore
    · have hkind := isIdle_of_isSeparator h.1
      cases htk : t.kind <;> simp_all [TokenKind.isIdle, continuesLine]

/-! ### Expressions that go on -/

namespace Recast

variable {p : Recast} {sc : Script} {before : Option TokenKind} {ts es rest : List Token}

/-- Behind the tokens of an expression that goes to their end, the expression goes on. -/
theorem expression_behind (h : Expression before ts es rest) (hrest : rest = []) :
    sc.expression before (p.tokens ts) =
      (sc.expression (es.foldl lastKind before) p.behind).map fun q =>
        (es.map p.token ++ q.1, q.2) := by
  induction h with
  | atEnd =>
    rw [tokens_nil, List.foldl_nil]
    cases sc.expression _ p.behind <;> rfl
  | stop => cases hrest
  | @group before t close ts mid es _ hends hopener hend _ ih =>
    have hkind : lastKind (lastKind before t) close = some close.kind := by
      refine if_neg fun hcomment => ?_
      have hcloser := groupEnd?_isCloser hend
      rw [hcomment] at hcloser
      cases hcloser
    have hgroup : sc.group (p.token t) (p.tokens ts) = .ok (p.token close, p.tokens mid) :=
      group_iff.mpr (groupEnd?_tokens hend)
    rw [tokens_cons, expression_cons, if_neg (by simpa [endsExpression] using hends),
      token_kind, if_pos hopener, hgroup]
    change ((sc.expression (some close.kind) (p.tokens mid)).map _) = _
    rw [ih hrest, List.foldl_cons, List.foldl_cons, hkind]
    cases sc.expression _ p.behind <;> rfl
  | @token before t ts es _ hends hopener _ ih =>
    rw [tokens_cons, expression_cons, if_neg (by simpa [endsExpression] using hends),
      token_kind, if_neg (by simp [hopener])]
    change ((sc.expression (lastKind before t) (p.tokens ts)).map _) = _
    rw [ih hrest, List.foldl_cons]
    cases sc.expression _ p.behind <;> rfl

end Recast

theorem Grammar.Expression.suffix {before : Option TokenKind} {ts es rest : List Token}
    (h : Expression before ts es rest) : rest <:+ ts := by
  induction h with
  | atEnd => exact List.suffix_refl _
  | stop => exact List.suffix_refl _
  | group _ _ hend _ ih =>
    have hmid := (List.suffix_cons _ _).trans (groupEnd?_suffix hend)
    exact (ih.trans hmid).trans (List.suffix_cons _ _)
  | token _ _ _ ih => exact ih.trans (List.suffix_cons _ _)

/-- A token that does not end an expression is taken in. -/
theorem Grammar.Expression.tail_suffix {before : Option TokenKind} {t : Token}
    {ts es rest : List Token} (h : Expression before (t :: ts) es rest)
    (hends : endsExpression before t = false) : rest <:+ ts := by
  cases h with
  | stop hstop => simp [hstop] at hends
  | group _ _ hend hmore =>
    exact hmore.suffix.trans ((List.suffix_cons _ _).trans (groupEnd?_suffix hend))
  | token _ _ hmore => exact hmore.suffix

theorem remark_kind {t : Token} (h : t.isRemark = true) : t.kind = .comment := by
  simp only [Token.isRemark, Bool.and_eq_true, beq_iff_eq] at h
  exact h.1

/-- Remarks at the front are taken in, whatever follows. -/
theorem expression_remarks {before : Option TokenKind} {front ts es rest : List Token}
    (hfront : ∀ t ∈ front, t.isRemark = true) :
    Expression before (front ++ ts) es rest ↔
      ∃ fs, es = front ++ fs ∧ Expression before ts fs rest := by
  induction front generalizing es with
  | nil => simp
  | cons t front ih =>
    rw [List.forall_mem_cons] at hfront
    have hkind := remark_kind hfront.1
    have hends : endsExpression before t = false := by simp [endsExpression, hkind]
    have hlast : lastKind before t = before := if_pos hkind
    constructor
    · intro h
      cases h with
      | stop hstop => simp [hstop] at hends
      | group _ hopener => simp [hkind, TokenKind.isOpener, TokenKind.closer?] at hopener
      | token _ _ hmore =>
        rw [hlast] at hmore
        obtain ⟨fs, rfl, hfs⟩ := (ih hfront.2).mp hmore
        exact ⟨fs, rfl, hfs⟩
    · rintro ⟨fs, rfl, hfs⟩
      refine .token hends (by simp [hkind, TokenKind.isOpener, TokenKind.closer?]) ?_
      rw [hlast]
      exact (ih hfront.2).mpr ⟨fs, rfl, hfs⟩

/-! ### Behind an open line -/

/-- Of tokens that cannot be taken in, an expression with an open line takes the line end and
    the remarks. -/
theorem exists_expression_of_not_goesOn {before : Option TokenKind} {nl : Token}
    {ts : List Token} (hopen : continuesLine before = true) (hnl : nl.kind = .newline)
    (hgoes : goesOn ts = false) :
    ∃ fs rest, Expression before (nl :: ts) (nl :: fs) rest ∧ ts = fs ++ rest ∧
      ∀ t ∈ fs, t.isRemark = true := by
  have hsplit : ts.takeWhile Token.isRemark ++ ts.dropWhile Token.isRemark = ts :=
    List.takeWhile_append_dropWhile
  have hfs : ∀ t ∈ ts.takeWhile Token.isRemark, t.isRemark = true :=
    fun t ht => List.mem_takeWhile_imp ht
  refine ⟨_, _, ?_, hsplit.symm, hfs⟩
  have hstop : Expression (some .newline) (ts.dropWhile Token.isRemark) []
      (ts.dropWhile Token.isRemark) := by
    unfold goesOn at hgoes
    cases hdrop : ts.dropWhile Token.isRemark with
    | nil => exact .atEnd
    | cons t more =>
      rw [hdrop] at hgoes
      refine .stop ?_
      rw [Bool.not_eq_false', Bool.or_eq_true] at hgoes
      rw [endsExpression, Bool.or_eq_true]
      exact hgoes.symm.imp id fun h => by simp [h, continuesLine]
  have hends : endsExpression before nl = false := by simp [endsExpression, hnl, hopen]
  refine .token hends (by simp [hnl, TokenKind.isOpener, TokenKind.closer?]) ?_
  have hlast : lastKind before nl = some .newline := by simp [lastKind, hnl]
  rw [hlast]
  have hall := (expression_remarks hfs).mpr ⟨[], rfl, hstop⟩
  rw [hsplit, List.append_nil] at hall
  exact hall

/-- An expression with an open line takes in the first token behind it that can be. -/
theorem exists_taken_of_goesOn {before : Option TokenKind} {nl : Token}
    {ts es rest : List Token} (hopen : continuesLine before = true) (hnl : nl.kind = .newline)
    (hgoes : goesOn ts = true) (h : Expression before (nl :: ts) es rest) :
    ∃ front t more, ts = front ++ t :: more ∧ (∀ u ∈ front, u.isRemark = true) ∧
      isSeparator t = false ∧ rest <:+ more := by
  have hsplit : ts.takeWhile Token.isRemark ++ ts.dropWhile Token.isRemark = ts :=
    List.takeWhile_append_dropWhile
  have hfront : ∀ t ∈ ts.takeWhile Token.isRemark, t.isRemark = true :=
    fun t ht => List.mem_takeWhile_imp ht
  have hhead := List.head?_dropWhile_not Token.isRemark ts
  unfold goesOn at hgoes
  cases hdrop : ts.dropWhile Token.isRemark with
  | nil =>
    rw [hdrop] at hgoes
    cases hgoes
  | cons t more =>
    rw [hdrop] at hgoes hsplit hhead
    simp only [List.head?_cons] at hhead
    have hkinds : (t.kind == .newline || t.kind == .semicolon) = false := by simpa using hgoes
    have hlast : lastKind before nl = some .newline := by simp [lastKind, hnl]
    have hmore : ∃ es', Expression (some .newline) ts es' rest := by
      cases h with
      | stop hstop => simp [endsExpression, hnl, hopen] at hstop
      | group _ hopener => simp [hnl, TokenKind.isOpener, TokenKind.closer?] at hopener
      | token _ _ hmore => exact ⟨_, hlast ▸ hmore⟩
    obtain ⟨es', hmore⟩ := hmore
    rw [← hsplit] at hmore
    obtain ⟨fs, -, htaken⟩ := (expression_remarks hfront).mp hmore
    refine ⟨_, t, more, hsplit.symm, hfront, ?_, htaken.tail_suffix ?_⟩
    · rw [isSeparator, hkinds, hhead]
      rfl
    · rw [Bool.or_eq_false_iff] at hkinds
      simp [endsExpression, hkinds.1, hkinds.2]

/-! ### The last statement -/

/-- Whether the last statement is an assignment that does not end with a backtick. -/
structure LastAssignment (ts : List Token) (sts : List Statement) : Prop where
  isAssignment : ∃ st ∈ sts.getLast?, st.content.isAssignment = true
  noBacktick : ∀ st ∈ sts.getLast?, ∀ t ∈ ts, st.EndsWith t → t.text ≠ ['\x60']

instance (ts : List Token) (sts : List Statement) : Decidable (LastAssignment ts sts) :=
  decidable_of_iff ((∃ st ∈ sts.getLast?, st.content.isAssignment = true) ∧
      ∀ st ∈ sts.getLast?, ∀ t ∈ ts, st.EndsWith t → t.text ≠ ['\x60'])
    ⟨fun h => ⟨h.1, h.2⟩, fun h => ⟨h.isAssignment, h.noBacktick⟩⟩

/-- The declaration at the end of statements, and what stands in front of it: the statements
    `init` are read from there in the longer script as well. -/
structure EndsIn (p : Placement) (sc whole : Script) (ts : List Token) (sts init : List Statement)
    (t : Token) (us : List Token) (content : Content) (last : Token) (rest : List Token) :
    Prop where
  statements : sts = init ++ [stated sc content t last]
  declaration : Declaration sc (t :: us) content last rest
  behind : ∀ u ∈ rest, isSeparator u = true
  suffix : t :: us <:+ ts
  front : whole.statementsFrom (p.tokens ts) = (whole.statementsFrom (p.tokens (t :: us))).map
    (init.map (Statement.below p.lines) ++ ·)

theorem EndsIn.cons {p : Placement} {sc whole : Script} {ts more : List Token}
    {sts init : List Statement} {t : Token} {us : List Token} {content : Content} {last : Token}
    {rest : List Token} (h : EndsIn p sc whole ts sts init t us content last rest)
    (st : Statement) (hsuffix : ts <:+ more)
    (hstep : whole.statementsFrom (p.tokens more) =
      (whole.statementsFrom (p.tokens ts)).map (st.below p.lines :: ·)) :
    EndsIn p sc whole more (st :: sts) (st :: init) t us content last rest := by
  refine ⟨by rw [h.statements]; rfl, h.declaration, h.behind, h.suffix.trans hsuffix, ?_⟩
  rw [hstep, h.front]
  cases whole.statementsFrom (p.tokens (t :: us)) <;> rfl

/-- Statements with an assignment at their end are read as far as that in a longer script. -/
theorem Placement.Of.exists_endsIn {p : Placement} {sc whole : Script} (h : p.Of sc whole)
    {ts : List Token} {sts : List Statement} (hstatements : Statements sc ts sts)
    (hin : Inside sc ts) (hlast : ∃ st ∈ sts.getLast?, st.content.isAssignment = true) :
    ∃ init t us content last rest, EndsIn p sc whole ts sts init t us content last rest := by
  -- unless it is the only one, the first statement has others behind it
  have hlater : ∀ {st : Statement} {more : List Statement},
      (∃ x ∈ (st :: more).getLast?, x.content.isAssignment = true) →
      more = [] ∧ st.content.isAssignment = true ∨
        ∃ x ∈ more.getLast?, x.content.isAssignment = true := by
    rintro st more ⟨x, hx, hassign⟩
    rw [List.getLast?_cons] at hx
    cases hmore : more.getLast? with
    | none =>
      rw [hmore] at hx
      cases hx
      exact .inl ⟨List.getLast?_eq_none_iff.mp hmore, hassign⟩
    | some y =>
      rw [hmore] at hx
      cases hx
      exact .inr ⟨_, rfl, hassign⟩
  induction hstatements with
  | nil => simp at hlast
  | @separator t ts sts hseparator hmore ih =>
    have hsuffix := List.suffix_cons t ts
    obtain ⟨init, u, us, content, last, rest, hend⟩ := ih (hin.of_suffix hsuffix) hlast
    refine ⟨init, u, us, content, last, rest, hend.statements, hend.declaration, hend.behind,
      hend.suffix.trans hsuffix, ?_⟩
    rw [← hend.front]
    exact (statementsFrom_cons _ _ _).trans (if_pos hseparator)
  | @requirement t ts st sts hrequirement hparse hmore ih =>
    have hsuffix := List.suffix_cons t ts
    rcases hlater hlast with ⟨-, hassign⟩ | hlast
    · obtain ⟨_, _, -, -, rfl⟩ := requirement_iff.mp hparse
      cases hassign
    · obtain ⟨init, u, us, content, last, rest, hend⟩ := ih (hin.of_suffix hsuffix) hlast
      have hstep := statementsFrom_requirement (t := p.token t) hrequirement
        (h.requirement_token hparse) (p.tokens ts)
      exact ⟨_, u, us, content, last, rest, hend.cons st hsuffix hstep⟩
  | @importing t last ts rest i sts husing himport _ ih =>
    rcases hlater hlast with ⟨-, hassign⟩ | hlast'
    · cases hassign
    · have hts := hin.of_suffix (List.suffix_cons t ts)
      have hextent := himport.extent.trans (List.suffix_cons t ts)
      have hsuffix := (List.suffix_cons last rest).trans hextent
      obtain ⟨init, u, us, content, last', rest', hend⟩ := ih (hin.of_suffix hsuffix) hlast'
      refine ⟨_, u, us, content, last', rest', hend.cons _ hsuffix ?_⟩
      rw [← h.stated_token _ (hin last (hextent.subset List.mem_cons_self))]
      exact statementsFrom_importing husing (h.recast.importing_tokens himport hts)
  | @declaration t last ts rest content sts hdeclaration hmore ih =>
    rcases hlater hlast with ⟨rfl, -⟩ | hlast'
    · refine ⟨[], t, ts, content, last, rest, rfl, hdeclaration, hmore.isSeparator_of_nil,
        List.suffix_refl _, ?_⟩
      cases whole.statementsFrom (p.tokens (t :: ts)) <;> rfl
    · obtain ⟨tail, hextent, -⟩ := hdeclaration.extent
      have hmem := hextent.subset List.mem_cons_self
      have hsuffix := ((List.suffix_append tail rest).trans (List.suffix_cons last _)).trans hextent
      obtain ⟨init, u, us, content', last', rest', hend⟩ := ih (hin.of_suffix hsuffix) hlast'
      refine ⟨_, u, us, content', last', rest', hend.cons _ hsuffix ?_⟩
      rw [← h.stated_token _ (hin last hmem)]
      refine statementsFrom_declaration (h.recast.declaration_tokens hdeclaration hin ?_)
      rintro - - rfl
      cases hmore
      simp at hlast'

/-! ### Assignments over other statements -/

theorem Grammar.Declaration.exists_expression {sc : Script} {ts r rest : List Token}
    {attrs : List Text} {t e last : Token} {content : Content}
    (h : Declaration sc ts content last rest) (hattributes : Attributes sc ts attrs (t :: e :: r))
    (hkind : t.kind = .variable) : ∃ es, Expression none (skipBlank r) es rest := by
  have hsame : ∀ {as us}, Attributes sc ts as us → us = t :: e :: r := by
    intro as us hus
    have heq := (attributes_iff.mpr hus).symm.trans (attributes_iff.mpr hattributes)
    cases heq
    rfl
  cases h with
  | enumeration hattributes' hkind' =>
    rw [(List.cons.inj (hsame hattributes')).1, hkind] at hkind'
    cases hkind'
  | classType hattributes' hkind' =>
    rw [(List.cons.inj (hsame hattributes')).1, hkind] at hkind'
    cases hkind'
  | function hattributes' hkind' =>
    rw [(List.cons.inj (hsame hattributes')).1, hkind] at hkind'
    cases hkind'
  | assignment hattributes' _ _ hexpression _ =>
    obtain ⟨-, hrest⟩ := List.cons.inj (hsame hattributes')
    rw [(List.cons.inj hrest).2] at hexpression
    exact ⟨_, hexpression⟩

/-- Where an expression ends in front of other tokens, the first of them ends a line. -/
theorem Grammar.Expression.rest_kind {before : Option TokenKind} {ts es rest more : List Token}
    {u : Token} (h : Expression before ts es rest) (hrest : rest = u :: more) :
    u.kind = .semicolon ∨ u.kind = .newline := by
  induction h with
  | atEnd => cases hrest
  | stop hends =>
    cases hrest
    simp only [endsExpression, Bool.or_eq_true, Bool.and_eq_true, beq_iff_eq] at hends
    exact hends.imp id And.left
  | group _ _ _ _ ih => exact ih hrest
  | token _ _ _ ih => exact ih hrest

/-- With separators only behind its expression, an assignment leaves the last line open if it
    has none behind it, and the last kind of the expression continues the line. -/
theorem endsOpen_eq {ts r es rest : List Token} (hsuffix : r <:+ ts)
    (hexpression : Expression none r es rest) (hsignificant : es.filter isSignificant ≠ [])
    (hbehind : ∀ u ∈ rest, isSeparator u = true) :
    endsOpen ts = (rest.isEmpty && continuesLine (es.foldl lastKind none)) := by
  obtain ⟨front, rfl⟩ := hsuffix
  obtain ⟨start, hstart⟩ := List.exists_mem_of_ne_nil _ hsignificant
  obtain ⟨hmem, hcounts⟩ := List.mem_filter.mp hstart
  have hkind : start.kind ≠ .comment := by
    intro hcomment
    simp [isSignificant, hcomment] at hcounts
  rw [endsOpen, List.foldl_append,
    foldl_lastKind_eq ⟨start, hexpression.subset hmem, hkind⟩ _ none]
  cases rest with
  | nil =>
    rw [hexpression.foldl_lastKind rfl]
    rfl
  | cons u more =>
    obtain ⟨taken, rfl⟩ := hexpression.suffix
    rw [List.forall_mem_cons] at hbehind
    rw [List.foldl_append, List.foldl_cons]
    apply continuesLine_separators hbehind.2
    rcases hexpression.rest_kind rfl with hu | hu <;> simp [lastKind, hu, continuesLine]

/-- Behind an expression that has taken in the start of a statement, the statements are
    others. -/
theorem not_statements_of_goesOn {whole : Script} {before : Option TokenKind} {nl : Token}
    {below fs rest : List Token} {bs : List Statement} (hopen : continuesLine before = true)
    (hnl : nl.kind = .newline) (hgoes : goesOn below = true)
    (hexpression : Expression before (nl :: below) fs rest) (hbelow : Statements whole below bs)
    (hapart : below.Pairwise fun a b =>
      ¬ (a.start.line = b.start.line ∧ a.start.column = b.start.column)) :
    ¬ Statements whole rest bs := by
  intro hrest
  obtain ⟨front, t, more, rfl, hfront, ht, hsuffix⟩ :=
    exists_taken_of_goesOn hopen hnl hgoes hexpression
  have hremarks : ∀ u ∈ front, isSeparator u = true := fun u hu => by
    simp [isSeparator, hfront u hu]
  obtain ⟨b, bs', rfl, hb⟩ :=
    ((statements_separators hremarks).mp hbelow).head_startsWith ht
  -- the same statement would start at a token behind its first one
  obtain ⟨u, hu, hstarts⟩ := hrest.startsWith b List.mem_cons_self
  have htu := (List.pairwise_cons.mp (List.pairwise_append.mp hapart).2.1).1 u (hsuffix.subset hu)
  have hplace := hb.symm.trans hstarts
  simp only [Option.some.injEq, Prod.mk.injEq] at hplace
  exact htu ⟨by omega, by omega⟩

/-- If its line does not go on, an expression keeps its significant tokens over other
    statements, and leaves these behind. -/
theorem Placement.Of.exists_expression_over {p : Placement} {sc whole : Script}
    (h : p.Of sc whole) {nl : Token} {below ts es rest : List Token} {bs : List Statement}
    (hbehind : p.behind = nl :: below) (hbelow : Statements whole below bs)
    (hexpression : Expression none ts es rest) (hrest : ∀ u ∈ rest, isSeparator u = true)
    (hno : ¬ ((rest.isEmpty && continuesLine (es.foldl lastKind none)) = true ∧
      goesOn below = true)) :
    ∃ fs rest', Expression none (p.recast.tokens ts) fs rest' ∧
      fs.filter isSignificant = (es.filter isSignificant).map p.recast.token ∧
      Statements whole rest' bs := by
  have hnl : nl.kind = .newline := h.newline nl (by rw [hbehind]; rfl)
  have hfilter : (es.map p.recast.token).filter isSignificant =
      (es.filter isSignificant).map p.recast.token := List.filter_map
  by_cases hopen : (rest.isEmpty && continuesLine (es.foldl lastKind none)) = true
  · -- the line end and remarks are taken in, and the statements stay
    obtain ⟨hnil, hkind⟩ := (Bool.and_eq_true _ _).mp hopen
    have hgoes : goesOn below = false := by simpa [hopen] using hno
    obtain ⟨fs, rest', htaken, rfl, hfs⟩ := exists_expression_of_not_goesOn hkind hnl hgoes
    have hremarks : ∀ u ∈ fs, isSeparator u = true := fun u hu => by simp [isSeparator, hfs u hu]
    refine ⟨es.map p.recast.token ++ nl :: fs, rest', ?_, ?_,
      (statements_separators hremarks).mp hbelow⟩
    · apply (@expression_iff whole _ _ _ _).mp
      rw [Recast.expression_behind hexpression (List.isEmpty_iff.mp hnil),
        show p.recast.behind = nl :: (fs ++ rest') from hbehind, expression_iff.mpr htaken]
      rfl
    · have hnone : (nl :: fs).filter isSignificant = [] := by
        rw [List.filter_eq_nil_iff, List.forall_mem_cons]
        exact ⟨by simp [isSignificant, hnl], fun u hu => by
          simp [isSignificant, remark_kind (hfs u hu)]⟩
      rw [List.filter_append, hnone, List.append_nil, hfilter]
  · refine ⟨_, _, Recast.expression_tokens h.recast.newline hexpression ?_, hfilter, ?_⟩
    · rintro rfl -
      simpa using hopen
    · have hseparators : ∀ u ∈ rest.map p.recast.token ++ [nl], isSeparator u = true := by
        intro u hu
        rcases List.mem_append.mp hu with hu | hu
        · obtain ⟨v, hv, rfl⟩ := List.mem_map.mp hu
          exact hrest v hv
        · rw [List.mem_singleton.mp hu]
          simp [isSeparator, hnl]
      have htokens : p.recast.tokens rest = (rest.map p.recast.token ++ [nl]) ++ below := by
        rw [List.append_assoc]
        exact congrArg (rest.map p.recast.token ++ ·) hbehind
      rw [htokens]
      exact (statements_separators hseparators).mpr hbelow

/-- Over statements that start apart from each other, statements that end in an assignment are
    read as they are, and those below as well, if and only if the line of the assignment does
    not go on with them. -/
theorem Placement.Of.statements_over_iff {p : Placement} {sc whole : Script} (h : p.Of sc whole)
    {nl : Token} {below ts : List Token} {sts bs : List Statement}
    (hbehind : p.behind = nl :: below)
    (hstatements : Statements sc ts sts) (hin : Inside sc ts)
    (hlast : ∃ st ∈ sts.getLast?, st.content.isAssignment = true)
    (hbelow : Statements whole below bs)
    (hapart : below.Pairwise fun a b =>
      ¬ (a.start.line = b.start.line ∧ a.start.column = b.start.column)) :
    Statements whole (p.tokens ts) (sts.map (Statement.below p.lines) ++ bs) ↔
      ¬ (endsOpen ts = true ∧ goesOn below = true) := by
  have hnl : nl.kind = .newline := h.newline nl (by rw [hbehind]; rfl)
  obtain ⟨init, t, us, content, last, rest, hend⟩ := h.exists_endsIn hstatements hin hlast
  have hts : Inside sc (t :: us) := hin.of_suffix hend.suffix
  have hassign : content.isAssignment = true := by
    obtain ⟨st, hst, hassign⟩ := hlast
    rw [hend.statements, List.getLast?_concat] at hst
    cases hst
    exact hassign
  -- what is read from the assignment on decides
  have hfront : Statements whole (p.tokens ts) (sts.map (Statement.below p.lines) ++ bs) ↔
      Statements whole (p.tokens (t :: us))
        ((stated sc content t last).below p.lines :: bs) := by
    rw [← statementsFrom_iff, ← statementsFrom_iff, hend.front, hend.statements, List.map_append,
      List.append_assoc]
    cases whole.statementsFrom (p.tokens (t :: us)) with
    | error e => simp [Except.map]
    | ok xs => simp [Except.map]
  rw [hfront]
  have hdeclaration := hend.declaration
  have hstated := h.stated_token (t := t) content
    (hts last (hdeclaration.extent.elim fun _ hextent => hextent.1.subset List.mem_cons_self))
  cases hdeclaration with
  | enumeration => cases hassign
  | classType => cases hassign
  | function => cases hassign
  | @assignment r es _ more v e start attrs hattributes hkind hequals hexpression hsignificant =>
    have hsome : es.filter isSignificant ≠ [] := by simp [hsignificant]
    have hsuffix : skipBlank r <:+ t :: us :=
      (skipBlank_suffix r).trans ((List.suffix_cons _ _).trans
        ((List.suffix_cons _ _).trans hattributes.suffix))
    have hopen := endsOpen_eq (hsuffix.trans hend.suffix) hexpression hsome hend.behind
    have hblank : skipBlank (p.recast.tokens r) = p.recast.tokens (skipBlank r) :=
      Recast.skipBlank_tokens_of_ne_nil (hexpression.ne_nil hsome)
    rw [hopen]
    constructor
    · rintro hall ⟨hends, hgoes⟩
      obtain ⟨hnil, hcontinues⟩ := (Bool.and_eq_true _ _).mp hends
      obtain ⟨content', last', rest', hdeclaration', hrest⟩ :
          ∃ content' last' rest', Declaration whole (p.tokens (t :: us)) content' last' rest' ∧
            Statements whole rest' bs := hall.of_head_kind hend.declaration.head_kind
      have hattributes' := h.recast.attributes_tokens hattributes (List.cons_ne_nil _ _) hts
      obtain ⟨es', hexpression'⟩ :=
        @Declaration.exists_expression _ _ (p.recast.tokens r) _ _ _ _ _ _ hdeclaration'
          hattributes' hkind
      rw [hblank, ← @expression_iff whole,
        Recast.expression_behind hexpression (List.isEmpty_iff.mp hnil)] at hexpression'
      obtain ⟨⟨fs, rest''⟩, htaken, heq⟩ := map_eq_ok hexpression'
      cases heq
      rw [show p.recast.behind = nl :: below from hbehind] at htaken
      exact not_statements_of_goesOn hcontinues hnl hgoes (expression_iff.mp htaken) hbelow
        hapart hrest
    · intro hno
      obtain ⟨fs, rest', hfs, hsame, hrest⟩ :=
        h.exists_expression_over hbehind hbelow hexpression hend.behind hno
      rw [← hblank] at hfs
      rw [← hstated]
      exact .declaration (h.recast.assignment_tokens hattributes hkind hequals hexpression
        hsignificant hts hfs hsame) hrest

/-! ### Classified sources -/

/-- The tokens of a scan start on different lines or in different columns. -/
theorem scan_apart {source : Text} {s : Scan} (h : scan source = .ok s) :
    s.tokens.Pairwise fun a b =>
      ¬ (a.start.line = b.start.line ∧ a.start.column = b.start.column) := by
  have htiling := scan_tiling h
  refine htiling.ordered.imp_of_mem fun {a b} ha hb horder => ?_
  have hproper := (htiling.nonempty a ha).2
  have hlater := (htiling.nonempty b hb).2
  have hinside := htiling.inside b hb
  rw [htiling.starts a ha, htiling.starts b hb]
  exact line_column_injective (by omega) (by omega)

/-- A backtick at the end of a source is a token of its own. -/
theorem backtick_token {front : List Piece} {p : Piece} (h : Spells none [] (front ++ [p]))
    (htext : p.text = ['\x60']) (place : Position) :
    ∃ t, tokensOf place (front ++ [p]) = tokensOf place front ++ [t] ∧ t.text = ['\x60'] ∧
      t.kind = .operator := by
  have hfits := (spells_append.mp h).2.1
  cases p with
  | gap c w =>
    cases htext
    exact absurd hfits (by simp [Piece.Fits, gapLength, isGap])
  | lexeme c w l =>
    cases htext
    obtain ⟨-, hread, -⟩ := hfits
    have hl : l = ⟨.operator, 0, none⟩ := by
      cases hread
      rfl
    subst hl
    exact ⟨_, tokensOf_append _ _ _, rfl, rfl⟩

/-- In front of a line end, a source that ends in an assignment is read as it is. -/
theorem LastAssignment.not_open {filename : Option Text} {ps : List Piece} {stop : Position}
    {sts : List Statement} (hps : Spells none [] ps) (hcr : '\r' ∉ textOf ps)
    (hlast : LastAssignment (tokensOf Position.start ps) sts)
    (hstatements : Statements ⟨filename, textOf ps, tokensOf Position.start ps, stop⟩
      (tokensOf Position.start ps) sts)
    (hin : Inside ⟨filename, textOf ps, tokensOf Position.start ps, stop⟩
      (tokensOf Position.start ps)) : ∀ p ∈ ps.getLast?, ¬ p.Open := by
  intro p hp hopen
  obtain ⟨front, rfl⟩ := List.getLast?_eq_some_iff.mp hp
  have htext : p.text = ['\x60'] := by
    refine hopen.resolve_right fun htext => hcr ?_
    rw [textOf_append, textOf_cons, htext]
    simp
  obtain ⟨t, htokens, hback, hkind⟩ := backtick_token hps htext Position.start
  let sc : Script := ⟨filename, textOf (front ++ [p]), tokensOf Position.start (front ++ [p]), stop⟩
  have hself : Placement.Of ⟨0, 0, []⟩ sc sc := by
    refine ⟨rfl, ⟨[], [], by simp, rfl⟩, ?_⟩
    intro t ht
    cases ht
  obtain ⟨init, v, us, content, last, rest, hend⟩ :=
    hself.exists_endsIn hstatements hin hlast.isAssignment
  obtain ⟨tail, hextent, htail⟩ := hend.declaration.extent
  -- the backtick is significant, so it ends the assignment
  have hts := hextent.trans hend.suffix
  rw [htokens] at hts
  obtain ⟨before, hbefore⟩ := hts
  have htlast : t ∈ (last :: (tail ++ rest)).getLast? := by
    have hgetLast := congrArg List.getLast? hbefore
    rw [List.getLast?_concat, List.getLast?_append_of_ne_nil _ (List.cons_ne_nil _ _)] at hgetLast
    exact hgetLast
  have hbehind : tail ++ rest = [] := by
    by_contra hsome
    rw [List.getLast?_cons_of_ne_nil hsome] at htlast
    rcases List.mem_append.mp (List.mem_of_getLast? htlast) with hmem | hmem
    · have hidle := htail t hmem
      simp [isSignificant, hkind] at hidle
    · have hidle := isIdle_of_isSeparator (hend.behind t hmem)
      simp [hkind, TokenKind.isIdle] at hidle
  rw [hbehind] at htlast
  obtain rfl : last = t := Option.some.inj htlast
  refine hlast.noBacktick (stated sc content v last) ?_ last ?_ rfl hback
  · rw [hend.statements, List.getLast?_concat]
    rfl
  · rw [htokens]
    simp

theorem goesOn_moved (offset lines : Nat) (ts : List Token) :
    goesOn (ts.map (Token.moved offset lines)) = goesOn ts := by
  have hmap : (ts.map (Token.moved offset lines)).dropWhile Token.isRemark =
      (ts.dropWhile Token.isRemark).map (Token.moved offset lines) := List.dropWhile_map
  rw [goesOn, goesOn, hmap]
  cases ts.dropWhile Token.isRemark <;> rfl

/-- **An assignment ends with its line, if the last token of the line does not continue it.**
    Below a source that ends in an assignment, a source has its own statements, further down,
    and the assignment stays as it is, unless the last token in front of the line end that is
    no comment is of a kind that continues its line, and the first token below that is no
    remark is neither a line end nor a semicolon. -/
theorem classify_below_assignment {filename : Option Text} {a b : Text}
    {as bs : List Statement} {s r : Scan} (ha : classify filename a = .ok as)
    (hb : classify filename b = .ok bs) (hs : scan a = .ok s) (hr : scan b = .ok r)
    (hcr : '\r' ∉ a) (hlast : LastAssignment s.tokens as) :
    classify filename (a ++ '\n' :: b) =
        .ok (as ++ bs.map (Statement.below (1 + a.count '\n'))) ↔
      ¬ (endsOpen s.tokens = true ∧ goesOn r.tokens = true) := by
  obtain ⟨s', hs', hfirst⟩ := classify_iff.mp ha
  obtain ⟨r', hr', hsecond⟩ := classify_iff.mp hb
  obtain rfl : s' = s := Except.ok.inj (hs'.symm.trans hs)
  obtain rfl : r' = r := Except.ok.inj (hr'.symm.trans hr)
  have hin := @scan_inside filename _ _ hs
  obtain ⟨ps, rfl, hps, htokens⟩ := exists_pieces hs
  rw [htokens] at hlast hfirst hin
  obtain ⟨w, nl, hw, hnl, -, hall⟩ :=
    scan_concat_newline hps (hlast.not_open hps hcr hfirst hin) hr
  let whole : Script := ⟨filename, textOf ps ++ '\n' :: b, w.tokens, w.stop⟩
  -- the second source stands behind the first and the line end
  let lower : Placement := ⟨(textOf ps).length + 1, 1 + (textOf ps).count '\n', []⟩
  have hlower : lower.Of ⟨filename, b, r'.tokens, r'.stop⟩ whole := by
    refine ⟨rfl, ⟨textOf ps ++ ['\n'], [], by simp [whole], by simp [lower]⟩, ?_⟩
    intro t ht
    cases ht
  have hbelow := hlower.statements_tokens hsecond (scan_inside hr) (fun h => absurd rfl h) .nil
  rw [List.append_nil] at hbelow
  -- the first source stands where it did
  let front : Placement := ⟨0, 0, nl :: lower.tokens r'.tokens⟩
  have hfront : front.Of ⟨filename, textOf ps, tokensOf Position.start ps, s'.stop⟩ whole := by
    refine ⟨rfl, ⟨[], '\n' :: b, by simp [whole], rfl⟩, ?_⟩
    intro t ht
    cases ht
    exact hnl
  have hplaced : w.tokens = front.tokens (tokensOf Position.start ps) := by
    have hid : front.token = id := funext token_moved_zero
    rw [hall, Placement.tokens, hid, List.map_id]
    exact congrArg (tokensOf Position.start ps ++ nl :: ·) (List.append_nil _).symm
  have hapart : (lower.tokens r'.tokens).Pairwise fun a b =>
      ¬ (a.start.line = b.start.line ∧ a.start.column = b.start.column) := by
    have hpairwise := scan_apart hw
    rw [hplaced] at hpairwise
    exact (List.pairwise_cons.mp (List.pairwise_append.mp hpairwise).2.1).2
  have hover := hfront.statements_over_iff rfl hfirst hin hlast.isAssignment hbelow hapart
  have hstatements : as.map (Statement.below 0) = as := by
    rw [funext below_zero, List.map_id']
  have hgoes : goesOn (lower.tokens r'.tokens) = goesOn r'.tokens := by
    rw [Placement.tokens, List.append_nil]
    exact goesOn_moved _ _ _
  rw [hstatements, ← hplaced, hgoes] at hover
  rw [htokens, ← hover]
  constructor
  · intro h
    obtain ⟨w', hw', hstatements'⟩ := classify_iff.mp h
    obtain rfl : w' = w := Except.ok.inj (hw'.symm.trans hw)
    exact hstatements'
  · intro h
    exact classify_iff.mpr ⟨w, hw, h⟩

/-- An increment with a remark behind it, over a line that holds a remark only. -/
theorem classify_below_assignment_remarks :
    ∃ a b : Text, a = "[int]$i = 0\n$x = $i++ # up".toList ∧
      b = "# down\n[A()]\nenum E \x7b F \x7d".toList ∧
      ∃ as bs s r, classify none a = .ok as ∧ classify none b = .ok bs ∧ scan a = .ok s ∧
        scan b = .ok r ∧ '\r' ∉ a ∧ LastAssignment s.tokens as ∧ endsOpen s.tokens = true ∧
        classify none (a ++ '\n' :: b) = .ok (as ++ bs.map (Statement.below 2)) := by
  have hfirst : ((classify none "[int]$i = 0\n$x = $i++ # up".toList).toOption.any fun as =>
      (scan "[int]$i = 0\n$x = $i++ # up".toList).toOption.any fun s =>
        LastAssignment s.tokens as ∧ endsOpen s.tokens = true) = true := by
    decide +kernel
  have hsecond : ((classify none "# down\n[A()]\nenum E \x7b F \x7d".toList).toOption.any fun _ =>
      (scan "# down\n[A()]\nenum E \x7b F \x7d".toList).toOption.any fun r =>
        goesOn r.tokens = false) = true := by
    decide +kernel
  obtain ⟨as, has, hfirst⟩ := toOption_any.mp hfirst
  obtain ⟨s, hs, hfirst⟩ := toOption_any.mp hfirst
  obtain ⟨hlast, hopen⟩ := of_decide_eq_true hfirst
  obtain ⟨bs, hbs, hsecond⟩ := toOption_any.mp hsecond
  obtain ⟨r, hr, hsecond⟩ := toOption_any.mp hsecond
  have hgoes : goesOn r.tokens = false := of_decide_eq_true hsecond
  have hcr : '\r' ∉ "[int]$i = 0\n$x = $i++ # up".toList := by decide
  exact ⟨_, _, rfl, rfl, as, bs, s, r, has, hbs, hs, hr, hcr, hlast, hopen,
    (classify_below_assignment has hbs hs hr hcr hlast).mpr (by simp [hgoes])⟩

/-- Behind an increment the assignment on the next line becomes part of the expression. -/
theorem classify_below_assignment_increment :
    ∃ a b : Text, a = "$x = $i++".toList ∧ b = "$y = 1".toList ∧
      ∃ as bs, classify none a = .ok as ∧ as.map Statement.text = [a] ∧
        (∀ st ∈ as, st.content.isAssignment = true) ∧ classify none b = .ok bs ∧
        classify none (a ++ '\n' :: b) ≠ .ok (as ++ bs.map (Statement.below 1)) := by
  have hfirst : ((classify none "$x = $i++".toList).toOption.any fun as =>
      as.map Statement.text = ["$x = $i++".toList] ∧
        ∀ st ∈ as, st.content.isAssignment = true) = true := by
    decide +kernel
  have hsecond : ((classify none "$y = 1".toList).toOption.any fun bs => bs.length = 1) = true := by
    decide +kernel
  have hall : ((classify none "$x = $i++\n$y = 1".toList).toOption.any fun sts =>
      sts.length = 1) = true := by
    decide +kernel
  obtain ⟨as, has, hfirst⟩ := toOption_any.mp hfirst
  obtain ⟨htexts, hassign⟩ := of_decide_eq_true hfirst
  obtain ⟨bs, hbs, hsecond⟩ := toOption_any.mp hsecond
  obtain ⟨sts, hsts, hall⟩ := toOption_any.mp hall
  refine ⟨_, _, rfl, rfl, as, bs, has, htexts, hassign, hbs, fun h => ?_⟩
  have hlength : as.length = 1 := by simpa using congrArg List.length htexts
  have heq := Except.ok.inj (hsts.symm.trans h)
  have hcount := congrArg List.length heq
  rw [List.length_append, List.length_map, hlength, of_decide_eq_true hsecond,
    of_decide_eq_true hall] at hcount
  cases hcount

end ScriptModule
