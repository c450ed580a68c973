/-
  ScriptModule/Proofs/Registration.lean
  =====================================
  **Registered definitions are sources of themselves.**  A class or a function is registered
  with its source, a variable with its assignment written out again: attributes, target and
  expression without what stood between them.  Each of these texts is read as the same
  definition, and as nothing else, and is registered with the same text.
-/
import ScriptModule.Proofs.Excerpt
import ScriptModule.Proofs.Substance

namespace ScriptModule

open Lexeme Script Grammar

/-! ### Attributes in a row -/

/-- Attributes right in front of each other and of a variable. -/
theorem exists_attributeRow {as : List Text} (h : ∀ a ∈ as, IsAttribute a) :
    ∃ ps, textOf ps = as.flatten ∧ (∀ before rest, Spells before rest ps) ∧
      ∀ {sc : Script} {front back : Text} {ts : List Token},
        sc.source = front ++ (textOf ps ++ back) → nextIs .variable ts = true →
        Attributes sc (tokensOf (Position.start.advance front) ps ++ ts) as ts ∧
        afterAttribute (tokensOf (Position.start.advance front) ps ++ ts) =
          tokensOf (Position.start.advance front) ps ++ ts := by
  induction as with
  | nil =>
    refine ⟨[], rfl, fun _ _ => trivial, ?_⟩
    intro sc front back ts _ hvariable
    constructor
    · cases ts with
      | nil => exact .nil rfl
      | cons t ts =>
        have ht : t.kind = .variable := by simpa [nextIs] using hvariable
        have hbracket : nextIs .leftBracket (t :: ts) = false := by simp [nextIs, ht]
        exact .nil hbracket
    · exact if_pos hvariable
  | cons a as ih =>
    rw [List.forall_mem_cons] at h
    obtain ⟨⟨qs, rfl, hgroup⟩, has⟩ := h
    obtain ⟨ps, htext, hspells, hread⟩ := ih has
    refine ⟨qs ++ ps, ?_, ?_, ?_⟩
    · rw [textOf_append, htext, List.flatten_cons]
    · intro before rest
      exact spells_append.mpr ⟨hgroup.spells before _, hspells _ rest⟩
    · intro sc front back ts hsource hvariable
      have hfront : sc.source = front ++ (textOf qs ++ (textOf ps ++ back)) := by
        rw [hsource, textOf_append, List.append_assoc]
      have hrest : sc.source = (front ++ textOf qs) ++ (textOf ps ++ back) := by
        rw [hfront, List.append_assoc]
      obtain ⟨hattributes, hafter⟩ := hread hrest hvariable
      rw [advance_append] at hattributes hafter
      rw [tokensOf_append, List.append_assoc]
      rw [← hafter] at hattributes
      obtain ⟨hall, hblank⟩ := hgroup.attributes hfront hattributes
      refine ⟨hall, ?_⟩
      -- a group starts with a bracket, which is nothing to be skipped
      unfold afterAttribute
      split
      · rfl
      · exact hblank

/-! ### Targets and expressions -/

/-- A variable is read alike in front of a blank. -/
theorem Piece.Fits.variable {sign : Bool} {c : Char} {w old : Text} {l : Lexeme}
    (h : (Piece.lexeme c w l).Fits sign old) (hkind : l.kind = .variable) (other : Bool)
    (rest : Text) : (Piece.lexeme c w l).Fits other (' ' :: rest) := by
  obtain ⟨hgap, hread, hlen⟩ := h
  obtain ⟨rfl, hdollar⟩ := dollar_of_variable hread hkind
  cases w with
  | nil =>
    have hoperator : l.kind = .operator := by
      cases old with
      | nil =>
        cases hdollar
        rfl
      | cons d old =>
        rw [List.nil_append, dollar_of_stop (endsDollar_of_zero hdollar hlen.symm)] at hdollar
        cases hdollar
        rfl
    cases hoperator.symm.trans hkind
  | cons d w =>
    have hblank : isNameChar ' ' = false := by decide
    have hnew : dollar (d :: w ++ ' ' :: rest) = .ok l := by
      apply dollar_append hdollar hlen
      · intro _
        exact hblank
      · intro _
        simp [scopedLength, hblank]
    exact ⟨rfl, hnew, hlen⟩

theorem afterAll_eq (before : Option TokenKind) (place : Position) (ps : List Piece) :
    afterAll before ps = (tokensOf place ps).foldl lastKind before := by
  induction ps generalizing before place with
  | nil => rfl
  | cons p ps ih =>
    cases p with
    | gap c w => exact ih before _
    | lexeme c w l => exact ih _ (place.advance (c :: w))

theorem signMayFollow_foldl {before : Option TokenKind} {ts : List Token}
    (hbefore : signMayFollow before = true)
    (hts : ∀ t ∈ ts, t.kind = .comment ∨ t.kind = .newline) :
    signMayFollow (ts.foldl lastKind before) = true := by
  induction ts generalizing before with
  | nil => exact hbefore
  | cons t ts ih =>
    rw [List.forall_mem_cons] at hts
    apply ih _ hts.2
    rcases hts.1 with hcomment | hnewline
    · rw [lastKind, if_pos hcomment]
      exact hbefore
    · rw [lastKind, hnewline]
      rfl

/-- Pieces of one expression behind an equals sign, at the end of a text. -/
structure IsExpression (qs : List Piece) : Prop where
  spells : Spells (some .equals) [] qs
  tokens : ∀ dest, ∃ es start more, Expression none (tokensOf dest qs) es [] ∧
    es.filter isSignificant = start :: more ∧ start.start = dest ∧
    (more.getLast?.getD start).stop = dest.advance (textOf qs) ∧
    skipBlank (tokensOf dest qs) = tokensOf dest qs

/-- Pieces that are read as an expression at one place are read as one at any place. -/
theorem isExpression_of_tokens {qs : List Piece} {place : Position} {es more : List Token}
    {start : Token} (hspells : Spells (some .equals) [] qs)
    (h : Expression none (tokensOf place qs) es [])
    (hsignificant : es.filter isSignificant = start :: more)
    (hhead : (tokensOf place qs).head? = some start) (hstart : start.start = place)
    (hstop : (more.getLast?.getD start).stop = place.advance (textOf qs)) : IsExpression qs := by
  refine ⟨hspells, ?_⟩
  intro dest
  let p := excerpt place dest (textOf qs)
  have htokens : p.tokens (tokensOf place qs) = tokensOf dest qs := tokens_excerpt hspells _ _
  have hplaced : Expression none (tokensOf dest qs) (es.map p.token) [] := by
    rw [← htokens]
    apply Recast.expression_tokens (p := p) _ h
    · intro _ hbehind
      exact absurd rfl hbehind
    · intro t ht
      cases ht
  refine ⟨es.map p.token, p.token start, more.map p.token, hplaced, ?_, ?_, ?_, ?_⟩
  · rw [List.filter_map]
    exact congrArg (List.map p.token) hsignificant
  · change p.place start.start = dest
    rw [hstart]
    exact @excerpt_place place dest [] (textOf qs)
  · have hwhole := @excerpt_place place dest (textOf qs) []
    rw [List.append_nil, ← hstop] at hwhole
    rw [Recast.getLast?_map_token]
    exact hwhole
  · obtain ⟨ts, hts⟩ := List.head?_eq_some_iff.mp hhead
    have hfirst : isSignificant start = true :=
      (List.mem_filter.mp (hsignificant ▸ List.mem_cons_self)).2
    simp only [isSignificant, Bool.and_eq_true, bne_iff_ne] at hfirst
    rw [← htokens, hts]
    exact @skipBlank_cons (p.token start) hfirst.2 hfirst.1 _

/-- The pieces from the first to the last significant token of an expression in a source are
    an expression by themselves. -/
theorem exists_isExpression {sc : Script} {ps : List Piece} {a es rest more : List Token}
    {ts : List Token} {e start : Token} (hspells : Spells none [] ps)
    (hsource : sc.source = textOf ps) (hall : tokensOf .start ps = a ++ e :: ts)
    (hequals : e.kind = .equals) (h : Expression none (skipBlank ts) es rest)
    (hsignificant : es.filter isSignificant = start :: more) :
    ∃ qs, IsExpression qs ∧ sc.slice start (more.getLast?.getD start) = textOf qs := by
  obtain ⟨comments, us, es', hblank, hcomments, hread, hfilter⟩ := h.start hsignificant
  have hlast : (es'.filter isSignificant).getLast? = some (more.getLast?.getD start) := by
    rw [hfilter, List.getLast?_cons]
  obtain ⟨vs, xs, es', hvs, hlast, hread, hfilter'⟩ := hread.cut hlast
  rw [hfilter] at hfilter'
  have hhead : vs.head? = some start := by
    have hfirst := congrArg List.head? hvs
    rw [List.head?_append_of_ne_nil _ (by rintro rfl; cases hlast)] at hfirst
    exact hfirst.symm
  -- between the equals sign and the expression there are comments and line ends only
  let gaps := ts.takeWhile (fun t => t.kind == .newline || t.isRemark) ++ comments
  have hgaps : ∀ t ∈ gaps, t.kind = .comment ∨ t.kind = .newline := by
    intro t ht
    rcases List.mem_append.mp ht with ht | ht
    · have hskipped := List.mem_takeWhile_imp ht
      simp only [Token.isRemark, Bool.or_eq_true, Bool.and_eq_true, beq_iff_eq] at hskipped
      exact hskipped.symm.imp And.left id
    · exact .inl (hcomments t ht)
  have hsplit : tokensOf .start ps = (a ++ e :: gaps) ++ (vs ++ xs) := by
    have hts : ts = ts.takeWhile (fun t => t.kind == .newline || t.isRemark) ++ skipBlank ts :=
      List.takeWhile_append_dropWhile.symm
    rw [hall, ← hvs, List.append_assoc, List.cons_append, List.append_assoc, ← hblank, ← hts]
  obtain ⟨front, qs, back, rfl, hfront, htokens, hstart, hstop, -⟩ :=
    exists_excerpt hspells hsplit hhead hlast
  have htext : sc.source = textOf front ++ (textOf qs ++ textOf back) := by
    rw [hsource, textOf_append, textOf_append]
  have hinside := (spells_append.mp (spells_append.mp hspells).2).1.at_end
  have hsign : signMayFollow (afterAll none front) = signMayFollow (some .equals) := by
    rw [afterAll_eq none .start, hfront, List.foldl_append, List.foldl_cons]
    refine signMayFollow_foldl ?_ hgaps
    rw [lastKind, hequals]
    rfl
  refine ⟨qs, ?_, slice_mid htext hstart hstop⟩
  rw [← htokens] at hread hhead
  rw [advance_append] at hstop
  exact isExpression_of_tokens (hinside.congr_before hsign) hread hfilter' hhead hstart hstop

/-! ### Assignments -/

/-- A text that is one variable in front of a blank. -/
def IsTarget (target : Text) : Prop :=
  ∃ c w l, target = c :: w ∧ l.kind = .variable ∧
    ∀ sign rest, (Piece.lexeme c w l).Fits sign (' ' :: rest)

theorem isTarget_of_mem {before : Option TokenKind} {place : Position} {ps : List Piece}
    {rest : Text} {t : Token} (h : Spells before rest ps) (ht : t ∈ tokensOf place ps)
    (hkind : t.kind = .variable) : IsTarget t.text := by
  obtain ⟨i, hi⟩ := List.mem_iff_getElem?.mp ht
  obtain ⟨front, c, w, l, back, rfl, -, rfl⟩ := exists_lexeme hi
  have hfits := (spells_append.mp h).2.1
  have hvariable : l.kind = .variable := hkind
  refine ⟨c, w, l, ?_, hvariable, hfits.variable hvariable⟩
  change l.text c w = c :: w
  rw [text_eq_shown hfits.2.2, shown, if_neg (by simp [hvariable])]

/-- The definition that an assignment stands for. -/
def variableOf (attributes : List Text) (target expression : Text) : VariableDef where
  name := variableName target
  target := target
  expression := expression
  typeConstraint := if attributes.isEmpty then none else some attributes.flatten

theorem render_variableOf (as : List Text) (target expression : Text) :
    (variableOf as target expression).render =
      as.flatten ++ (target ++ ([' ', '=', ' '] ++ expression)) := by
  have hattributes : (variableOf as target expression).typeConstraint.getD [] = as.flatten := by
    cases as <;> rfl
  rw [VariableDef.render, hattributes]
  simp [variableOf]

/-- An assignment that is written out again is read as what it was. -/
theorem classify_variableOf {as : List Text} {target : Text} {qs : List Piece}
    (has : ∀ a ∈ as, IsAttribute a) (htarget : IsTarget target) (hqs : IsExpression qs)
    (file : Option Text) :
    ∃ st, classify file (variableOf as target (textOf qs)).render = .ok [st] ∧
      st.content = .assignment (variableOf as target (textOf qs)) := by
  obtain ⟨rs, hrs, hspells, hrow⟩ := exists_attributeRow has
  obtain ⟨c, w, l, rfl, hvariable, hfits⟩ := htarget
  let all := rs ++ .lexeme c w l :: .gap ' ' [] :: Piece.whole .equals ['='] :: .gap ' ' [] :: qs
  have htext : textOf all = (variableOf as (c :: w) (textOf qs)).render := by
    rw [render_variableOf, ← hrs, textOf_append]
    rfl
  have hafter : (Piece.lexeme c w l).after (afterAll none rs) = some .variable := by
    rw [Piece.after, if_neg (by simp [hvariable]), hvariable]
  have hall : Spells none [] all := by
    refine spells_append.mpr ⟨hspells none _, hfits _ _, ?_⟩
    rw [hafter]
    exact ⟨rfl, ⟨rfl, rfl, rfl⟩, rfl, hqs.spells⟩
  have hscan := scanFrom_textOf hall Position.start
  rw [htext] at hscan
  let dest := Position.start.advance (textOf rs ++ (c :: w ++ [' ', '=', ' ']))
  obtain ⟨es, start, more, hexpression, hsignificant, hstart, hstop, hblank⟩ := hqs.tokens dest
  let sc : Script := ⟨file, (variableOf as (c :: w) (textOf qs)).render, tokensOf .start all,
    Position.start.advance (variableOf as (c :: w) (textOf qs)).render⟩
  let t := l.token (Position.start.advance (textOf rs)) c w
  let e := Token.whole .equals ['='] ((Position.start.advance (textOf rs ++ c :: w)).advance [' '])
  have htokens : tokensOf .start all = tokensOf .start rs ++ t :: e :: tokensOf dest qs := by
    rw [tokensOf_append, tokensOf, tokensOf, tokensOf_whole (by decide) (by decide), tokensOf]
    simp only [dest, t, e, advance_append]
    rfl
  have hsource : sc.source = textOf rs ++ ((c :: w ++ [' ', '=', ' ']) ++ textOf qs) := by
    change (variableOf as (c :: w) (textOf qs)).render = _
    rw [← htext]
    simp [all, Piece.text, Piece.whole]
  have hread : Attributes sc (tokensOf .start rs ++ t :: e :: tokensOf dest qs) as
      (t :: e :: tokensOf dest qs) := by
    have hvariable' : nextIs .variable (t :: e :: tokensOf dest qs) = true := by
      simp [nextIs, t, hvariable]
    exact (@hrow sc [] _ _ hsource hvariable').1
  have hname : t.text = c :: w := by
    change l.text c w = c :: w
    rw [text_eq_shown (hfits true []).2.2, shown, if_neg (by simp [hvariable])]
  have hslice : sc.slice start (more.getLast?.getD start) = textOf qs := by
    have hwhole : sc.source =
        (textOf rs ++ (c :: w ++ [' ', '=', ' '])) ++ (textOf qs ++ []) := by
      rw [hsource]
      simp
    apply slice_mid hwhole hstart
    rw [hstop, advance_append]
  rw [← hblank] at hexpression
  have hdeclaration := Declaration.assignment hread hvariable (rfl : e.kind = .equals) hexpression
    hsignificant
  rw [hslice, hname] at hdeclaration
  obtain ⟨st, hstatements, hst⟩ := hdeclaration.statements
  rw [← htokens] at hstatements
  exact ⟨st, classify_iff.mpr ⟨_, hscan, hstatements⟩, hst⟩

/-! ### Registered texts -/

/-- The definition that a statement adds to the registry, if it adds one. -/
def Statement.definition? (st : Statement) : Option Definition :=
  st.contributions.findSome? Contribution.definition?

/-- Whether a statement is a class, a variable or a function. -/
def Content.IsVerbatim (content : Content) : Prop :=
  (∃ c, content = .classType c) ∨ (∃ v, content = .assignment v) ∨ ∃ n, content = .function n

/-- The text that a class, a variable or a function is registered with. -/
def Statement.registeredText (st : Statement) : Text :=
  match st.content with
  | .assignment v => v.render
  | _ => st.text

/-- What a statement says decides what it defines, and with its registered text. -/
theorem Content.IsVerbatim.definition? {content : Content} (h : content.IsVerbatim) :
    ∃ define : Text → Definition, (∀ text, (define text).value = text) ∧
      ∀ st : Statement, st.content = content → st.definition? = some (define st.registeredText) := by
  rcases h with ⟨c, rfl⟩ | ⟨v, rfl⟩ | ⟨n, rfl⟩
  · refine ⟨fun text => ⟨.classType, Text.fold c.name, text, []⟩, fun _ => rfl, ?_⟩
    intro st hst
    rw [Statement.definition?, Statement.contributions, Statement.registeredText, hst]
    rfl
  · refine ⟨fun text => ⟨.variable, Text.fold v.name, text, []⟩, fun _ => rfl, ?_⟩
    intro st hst
    rw [Statement.definition?, Statement.contributions, Statement.registeredText, hst]
    rfl
  · refine ⟨fun text => ⟨.function, Text.fold n, text, [.entryPoint]⟩, fun _ => rfl, ?_⟩
    intro st hst
    rw [Statement.definition?, Statement.contributions, Statement.registeredText, hst]
    rfl

/-- An assignment of a source, written out again, is read as the same assignment. -/
theorem Grammar.Declaration.classify_assignment {sc : Script} {ps : List Piece} {v : VariableDef}
    {last : Token} {ts rest : List Token} (h : Declaration sc ts (.assignment v) last rest)
    (hspells : Spells none [] ps) (hsource : sc.source = textOf ps)
    (hts : ts <:+ tokensOf .start ps) (file : Option Text) :
    ∃ st, classify file v.render = .ok [st] ∧ st.content = .assignment v := by
  cases h with
  | @assignment r es _ more t e start attrs hattributes hkind hequals hexpression hsignificant =>
    obtain ⟨a, hall⟩ := hattributes.suffix.trans hts
    have htarget : IsTarget t.text := isTarget_of_mem hspells (by rw [← hall]; simp) hkind
    have hbehind : tokensOf .start ps = (a ++ [t]) ++ e :: r := by
      rw [← hall]
      simp
    obtain ⟨qs, hqs, hslice⟩ :=
      exists_isExpression hspells hsource hbehind hequals hexpression hsignificant
    have hread := classify_variableOf (hattributes.isAttribute hspells hsource hts) htarget hqs file
    rw [← hslice] at hread
    exact hread

/-- The text of a class, a variable or a function is a source of one statement, which says
    the same and has the same text. -/
theorem Grammar.Declaration.classify_registeredText {sc : Script} {ps : List Piece} {st : Statement}
    {t last : Token} {ts rest : List Token}
    (h : Declaration sc (t :: ts) st.content last rest) (hstated : st = stated sc st.content t last)
    (hverbatim : st.content.IsVerbatim) (hspells : Spells none [] ps)
    (hsource : sc.source = textOf ps) (hts : t :: ts <:+ tokensOf .start ps) (file : Option Text) :
    ∃ st', classify file st.registeredText = .ok [st'] ∧ st'.content = st.content ∧
      st'.registeredText = st.registeredText := by
  have hslice : st.text = sc.slice t last := congrArg Statement.text hstated
  have hbody : HasBody st.content → st.registeredText = st.text →
      (∀ st' : Statement, st'.content = st.content → st'.registeredText = st'.text) →
      ∃ st', classify file st.registeredText = .ok [st'] ∧ st'.content = st.content ∧
        st'.registeredText = st.registeredText := by
    intro hcontent htext hother
    obtain ⟨st', hread, hsame, hwhole⟩ := h.classify_slice hcontent hspells hsource hts file
    rw [← hslice] at hread hwhole
    exact ⟨st', htext ▸ hread, hsame, (hother st' hsame).trans (hwhole.trans htext.symm)⟩
  rcases hverbatim with ⟨c, hc⟩ | ⟨v, hv⟩ | ⟨n, hn⟩
  · apply hbody (.inl ⟨c, hc⟩)
    · rw [Statement.registeredText, hc]
    · intro st' hsame
      rw [Statement.registeredText, hsame, hc]
  · rw [hv] at h
    obtain ⟨st', hread, hsame⟩ := h.classify_assignment hspells hsource hts file
    have hrender : ∀ u : Statement, u.content = .assignment v → u.registeredText = v.render := by
      intro u hu
      rw [Statement.registeredText, hu]
    rw [hrender st hv]
    exact ⟨st', hread, hsame.trans hv.symm, hrender st' hsame⟩
  · apply hbody (.inr ⟨n, hn⟩)
    · rw [Statement.registeredText, hn]
    · intro st' hsame
      rw [Statement.registeredText, hsame, hn]

/-- **Registered definitions are read as themselves.**  The text that a class, a variable or a
    function of any source is registered with is a source of one statement, which says the
    same and is registered with the same text. -/
theorem classify_registered {filename : Option Text} {source : Text} {sts : List Statement}
    {st : Statement} (h : classify filename source = .ok sts) (hst : st ∈ sts)
    (hverbatim : st.content.IsVerbatim) :
    ∃ d, st.definition? = some d ∧ ∀ file, ∃ st', classify file d.value = .ok [st'] ∧
      st'.content = st.content ∧ st'.definition? = some d := by
  obtain ⟨s, hscan, hstatements⟩ := classify_iff.mp h
  obtain ⟨ps, rfl, hspells, htokens⟩ := exists_pieces hscan
  have hdeclares : (∀ r, st.content ≠ .requirement r) ∧ ∀ i, st.content ≠ .importing i := by
    rcases hverbatim with ⟨c, hc⟩ | ⟨v, hv⟩ | ⟨n, hn⟩
    · simp [hc]
    · simp [hv]
    · simp [hn]
  obtain ⟨t, us, last, rest, hsuffix, hstated, hdeclaration⟩ :=
    hstatements.exists_declaration hst hdeclares.1 hdeclares.2
  rw [htokens] at hsuffix
  obtain ⟨define, hvalue, hdefine⟩ := hverbatim.definition?
  refine ⟨define st.registeredText, hdefine st rfl, ?_⟩
  intro file
  obtain ⟨st', hread, hcontent, htext⟩ :=
    hdeclaration.classify_registeredText hstated hverbatim hspells rfl hsuffix file
  rw [hvalue]
  refine ⟨st', hread, hcontent, ?_⟩
  rw [hdefine st' hcontent, htext]

/-- An assignment with comments and line ends between its attributes, in front of its
    expression and inside it. -/
theorem classify_registered_assignment :
    ∃ sts st d, classify none "[A('x')] # c
[int] $script:x = # d
  -1 + # e
  @(2,
3) # f".toList = .ok sts ∧ st ∈ sts ∧ st.definition? = some d ∧
      d.value = "[A('x')][int]$script:x = -1 + # e
  @(2,
3)".toList ∧
      ∀ file, ∃ st', classify file d.value = .ok [st'] ∧ st'.content = st.content ∧
        st'.definition? = some d := by
  have hrun : (classify none "[A('x')] # c
[int] $script:x = # d
  -1 + # e
  @(2,
3) # f".toList).toOption.any (fun sts => sts.any fun st => st.content.isAssignment &&
      st.definition?.any fun d => d.value = "[A('x')][int]$script:x = -1 + # e
  @(2,
3)".toList) = true := by
    decide +kernel
  obtain ⟨sts, hclassify, hsome⟩ := toOption_any.mp hrun
  obtain ⟨st, hst, hboth⟩ := List.any_eq_true.mp hsome
  obtain ⟨hassignment, hvalue⟩ := (Bool.and_eq_true _ _).mp hboth
  have hverbatim : st.content.IsVerbatim := by
    cases hcontent : st.content with
    | assignment v => exact .inr (.inl ⟨v, rfl⟩)
    | _ =>
      rw [hcontent] at hassignment
      cases hassignment
  obtain ⟨d, hd, hread⟩ := classify_registered hclassify hst hverbatim
  rw [hd] at hvalue
  exact ⟨sts, st, d, hclassify, hst, hd, of_decide_eq_true hvalue, hread⟩

end ScriptModule
