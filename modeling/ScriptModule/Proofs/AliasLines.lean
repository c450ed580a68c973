/-
  ScriptModule/Proofs/AliasLines.lean
  ===================================
  **A line between attributes.**  When a line with a requirement comment is put between the
  tokens in front of a parameter keyword, it hides the attributes in front of it, if nothing
  but attributes stands behind it.  Else the same attributes are found, and an alias
  attribute that is read declares the same names with the line inside it.
-/
import Mathlib.Data.List.Forall2
import ScriptModule.Proofs.AliasGrammar
import ScriptModule.Proofs.Pieces

namespace ScriptModule.Script

/-! ### The names of a group -/

/-- Whether an attribute is read, and declares aliases with the given names. -/
def Declares (sc : Script) (g : List Token) (names : List Text) : Prop :=
  ∃ as, sc.groupAliases g = .ok as ∧ as.map AliasDeclaration.name = names

theorem aliasOf?_said {t u : Token} (h : u.said = t.said) :
    (aliasOf? u).map AliasDeclaration.name = (aliasOf? t).map AliasDeclaration.name := by
  simp only [Token.said, Prod.mk.injEq] at h
  obtain ⟨hkind, htext, hvalue⟩ := h
  unfold aliasOf?
  rw [hkind, htext, hvalue]
  split
  · rfl
  · split <;> rfl

theorem kind_of_said {t u : Token} (h : u.said = t.said) : u.kind = t.kind := congrArg Prod.fst h

/-- Tokens that say the same declare the same names. -/
theorem AliasNames.of_said {ts us : List Token} {as : List AliasDeclaration}
    (h : AliasNames ts as) (hsaid : us.map Token.said = ts.map Token.said) :
    ∃ bs, AliasNames us bs ∧ bs.map AliasDeclaration.name = as.map AliasDeclaration.name := by
  induction h generalizing us with
  | @last t a ha =>
    obtain ⟨u, rfl, hu⟩ := List.map_eq_singleton_iff.mp hsaid
    have hname := aliasOf?_said hu
    rw [ha] at hname
    obtain ⟨b, hb, hsame⟩ := Option.map_eq_some_iff.mp hname
    exact ⟨[b], .last hb, by simp [hsame]⟩
  | @more t comma ts a as ha hcomma _ ih =>
    obtain ⟨u, us, rfl, hu, hus⟩ := List.map_eq_cons_iff.mp hsaid
    obtain ⟨comma', us, rfl, hcomma', hus⟩ := List.map_eq_cons_iff.mp hus
    obtain ⟨bs, hbs, hnames⟩ := ih hus
    have hname := aliasOf?_said hu
    rw [ha] at hname
    obtain ⟨b, hb, hsame⟩ := Option.map_eq_some_iff.mp hname
    refine ⟨b :: bs, .more hb ((kind_of_said hcomma').trans hcomma) hbs, ?_⟩
    rw [List.map_cons, List.map_cons, hsame, hnames]

theorem AliasList.of_said {ts us : List Token} {as : List AliasDeclaration}
    (h : AliasList ts as) (hsaid : us.map Token.said = ts.map Token.said) :
    ∃ bs, AliasList us bs ∧ bs.map AliasDeclaration.name = as.map AliasDeclaration.name := by
  cases h with
  | empty =>
    obtain rfl := List.map_eq_nil_iff.mp hsaid
    exact ⟨[], .empty, rfl⟩
  | names h =>
    obtain ⟨bs, hbs, hnames⟩ := h.of_said hsaid
    exact ⟨bs, .names hbs, hnames⟩

theorem nextIs_skipLines_eq (k : TokenKind) (ts : List Token) :
    nextIs k (skipLines ts) = (ts.filter isSignificant).head?.any fun t => t.kind == k := by
  cases hskip : skipLines ts with
  | nil => rw [filter_of_skipLines_nil hskip]; rfl
  | cons t r => rw [filter_of_skipLines_cons hskip]; rfl

/-- The tokens behind the word `Alias`, and others that say the same but for line ends and
    comments.  Only what stands directly behind the parenthesis must not be another token. -/
theorem aliasAttribute_of_said {sc : Script} (whole : Script) {ts us : List Token} {c c' : Token}
    (hlast : ts.getLast? = some c) (hc : c.kind = .rightBracket)
    (hlast' : us.getLast? = some c') (hc' : c'.kind = .rightBracket)
    (hsaid : (us.filter isSignificant).map Token.said = (ts.filter isSignificant).map Token.said)
    (hfirst : ∀ paren r, ts = paren :: r → paren.kind = .leftParen →
      ∃ paren' r', us = paren' :: r' ∧ paren'.kind = .leftParen ∧
        (nextIs .atParen r = true → nextIs .atParen r' = true))
    {as : List AliasDeclaration} (h : sc.aliasAttribute ts = .ok as) :
    ∃ bs, whole.aliasAttribute us = .ok bs ∧
      bs.map AliasDeclaration.name = as.map AliasDeclaration.name := by
  obtain ⟨paren, r, hts, hparen, hdirect, hform⟩ := (aliasAttribute_iff hlast hc).mp h
  obtain ⟨paren', r', hus, hparen', hnext⟩ := hfirst paren r hts hparen
  have hcounts : isSignificant paren = true := by simp [isSignificant, hparen]
  have hcounts' : isSignificant paren' = true := by simp [isSignificant, hparen']
  have hend := getLast?_filter hlast' hc'
  rw [hts, hus, List.filter_cons_of_pos hcounts, List.filter_cons_of_pos hcounts'] at hsaid
  rw [hus, List.filter_cons_of_pos hcounts'] at hend
  have hrest := (List.cons.inj hsaid).2
  have hdirect' : nextIs .atParen (skipLines r') = true → nextIs .atParen r' = true := by
    intro hat
    apply hnext
    apply hdirect
    rw [nextIs_skipLines_eq] at hat ⊢
    have hhead := congrArg (fun l => l.head?.any fun s => s.1 == .atParen) hrest
    simp only [List.head?_map, Option.any_map] at hhead
    exact hhead.symm.trans hat
  rcases hform with ⟨vs, p, hnames, hp, hfilter⟩ | ⟨at', vs, p, q, hat, hnames, hp, hq, hfilter⟩
  · rw [hfilter, List.map_append] at hrest
    obtain ⟨vs', ends, hfilter', hvs, hends⟩ := List.map_eq_append_iff.mp hrest
    obtain ⟨p', ends, rfl, hp', hends⟩ := List.map_eq_cons_iff.mp hends
    obtain ⟨d, rfl, -⟩ := List.map_eq_singleton_iff.mp hends
    obtain rfl : d = c' := by
      have hconcat : paren' :: (vs' ++ [p', d]) = (paren' :: vs' ++ [p']) ++ [d] := by simp
      rw [hfilter', hconcat, List.getLast?_concat] at hend
      exact Option.some.inj hend
    obtain ⟨bs, hbs, hsame⟩ := hnames.of_said hvs
    refine ⟨bs, (aliasAttribute_iff hlast' hc').mpr ⟨paren', r', hus, hparen', hdirect', .inl ?_⟩,
      hsame⟩
    exact ⟨vs', p', hbs, (kind_of_said hp').trans hp, hfilter'⟩
  · rw [hfilter, List.map_cons, List.map_append] at hrest
    obtain ⟨at'', more, hfilter', hat', hmore⟩ := List.map_eq_cons_iff.mp hrest
    obtain ⟨vs', ends, rfl, hvs, hends⟩ := List.map_eq_append_iff.mp hmore
    obtain ⟨p', ends, rfl, hp', hends⟩ := List.map_eq_cons_iff.mp hends
    obtain ⟨q', ends, rfl, hq', hends⟩ := List.map_eq_cons_iff.mp hends
    obtain ⟨d, rfl, -⟩ := List.map_eq_singleton_iff.mp hends
    obtain rfl : d = c' := by
      have hconcat : paren' :: at'' :: (vs' ++ [p', q', d]) =
          (paren' :: at'' :: vs' ++ [p', q']) ++ [d] := by simp
      rw [hfilter', hconcat, List.getLast?_concat] at hend
      exact Option.some.inj hend
    obtain ⟨bs, hbs, hsame⟩ := hnames.of_said hvs
    refine ⟨bs, (aliasAttribute_iff hlast' hc').mpr ⟨paren', r', hus, hparen', hdirect', .inr ?_⟩,
      hsame⟩
    exact ⟨at'', vs', p', q', (kind_of_said hat').trans hat, hbs, (kind_of_said hp').trans hp,
      (kind_of_said hq').trans hq, hfilter'⟩

/-! ### Groups with a line inside -/

/-- Whether a group is another one with its front moved, and perhaps a line of line ends and
    comments put in behind a line end. -/
def Parted (f : Token → Token) (g g' : List Token) : Prop :=
  ∃ a line b, g = a ++ b ∧ g' = a.map f ++ (line ++ b) ∧
    (∀ t ∈ line, isSignificant t = false) ∧
    (line ≠ [] → ∃ nl, a.getLast? = some nl ∧ nl.kind = .newline)

section

variable {f : Token → Token} (hf : ∀ t, (f t).said = t.said)
include hf

theorem Parted.filter_said {g g' : List Token} (h : Parted f g g') :
    (g'.filter isSignificant).map Token.said = (g.filter isSignificant).map Token.said := by
  obtain ⟨a, line, b, rfl, rfl, hline, -⟩ := h
  have hsame : isSignificant ∘ f = isSignificant :=
    funext fun t => by simp only [Function.comp, isSignificant, kind_of_said (hf t)]
  have hsaid : Token.said ∘ f = Token.said := funext hf
  have hnone : line.filter isSignificant = [] := List.filter_eq_nil_iff.mpr (by simpa using hline)
  rw [List.filter_append, List.filter_append, List.filter_append, hnone, List.nil_append,
    List.filter_map, hsame, List.map_append, List.map_append, List.map_map, hsaid]

/-- The first token is the same, and behind any but a line end so is the rest. -/
theorem Parted.cons {t : Token} {g g' : List Token} (h : Parted f (t :: g) g') :
    ∃ t' more, g' = t' :: more ∧ t'.said = t.said ∧ (t.kind ≠ .newline → Parted f g more) := by
  obtain ⟨a, line, b, hg, rfl, hline, hend⟩ := h
  have hwhole : ∀ b : List Token, Parted f b b :=
    fun b => ⟨[], [], b, rfl, rfl, by simp, fun h => absurd rfl h⟩
  rcases a with _ | ⟨u, a⟩
  · obtain rfl : line = [] := by
      by_contra hne
      obtain ⟨nl, hnl, -⟩ := hend hne
      cases hnl
    obtain rfl : t :: g = b := hg
    exact ⟨t, g, rfl, rfl, fun _ => hwhole g⟩
  · obtain ⟨rfl, rfl⟩ := List.cons.inj hg
    refine ⟨f t, a.map f ++ (line ++ b), rfl, hf t, fun hkind => ⟨a, line, b, rfl, rfl, hline, ?_⟩⟩
    intro hne
    obtain ⟨nl, hnl, hnewline⟩ := hend hne
    cases a with
    | nil =>
      cases hnl
      exact absurd hnewline hkind
    | cons v a => exact ⟨nl, by rwa [List.getLast?_cons_cons] at hnl, hnewline⟩

theorem Parted.getLast? {g g' : List Token} {c : Token} (h : Parted f g g')
    (hlast : g.getLast? = some c) (hc : c.kind ≠ .newline) :
    ∃ c', g'.getLast? = some c' ∧ c'.said = c.said := by
  obtain ⟨a, line, b, rfl, rfl, -, hend⟩ := h
  rcases List.eq_nil_or_concat' b with rfl | ⟨b, d, rfl⟩
  · rw [List.append_nil] at hlast
    obtain rfl : line = [] := by
      by_contra hne
      obtain ⟨nl, hnl, hnewline⟩ := hend hne
      cases hnl.symm.trans hlast
      exact hc hnewline
    refine ⟨f c, ?_, hf c⟩
    rw [List.append_nil, List.append_nil, List.getLast?_map, hlast]
    rfl
  · rw [← List.append_assoc, List.getLast?_concat] at hlast
    cases hlast
    exact ⟨c, by rw [← List.append_assoc, ← List.append_assoc, List.getLast?_concat], rfl⟩

/-- An attribute that is read declares the same names with a line put in. -/
theorem Parted.declares {sc : Script} (whole : Script) {g g' : List Token} {names : List Text}
    (h : Parted f g g')
    (hbrackets : ∃ o mid c, g = o :: (mid ++ [c]) ∧ o.kind = .leftBracket ∧ c.kind = .rightBracket)
    (hread : Declares sc g names) : Declares whole g' names := by
  obtain ⟨o, mid, c, rfl, ho, hc⟩ := hbrackets
  obtain ⟨w, r, hwr⟩ : ∃ w r, mid ++ [c] = w :: r :=
    List.exists_cons_of_ne_nil (List.append_ne_nil_of_right_ne_nil mid (List.cons_ne_nil c []))
  rw [hwr] at h hread
  have hcount : (w :: r).getLast? = some c := by rw [← hwr, List.getLast?_concat]
  obtain ⟨o', g'', rfl, -, hmore⟩ := h.cons hf
  have hmore := hmore (by rw [ho]; decide)
  obtain ⟨w', r', rfl, hw, hrest⟩ := hmore.cons hf
  have hword : w'.isWord "Alias" = w.isWord "Alias" := by
    rw [Token.isWord, Token.isWord, kind_of_said hw, show w'.text = w.text from
      congrArg (fun s => s.2.1) hw]
  obtain ⟨as, has, rfl⟩ := hread
  cases halias : w.isWord "Alias" with
  | false =>
    rw [groupAliases, halias, Bool.and_false] at has
    cases has
    refine ⟨[], ?_, rfl⟩
    rw [groupAliases, hword, halias, Bool.and_false]
    rfl
  | true =>
    have hkind : w.kind = .word := by
      simp only [Token.isWord, Bool.and_eq_true, beq_iff_eq] at halias
      exact halias.1
    have hrest := hrest (by rw [hkind]; decide)
    have hlast : r.getLast? = some c := by
      cases r with
      | nil =>
        cases hcount
        cases hkind.symm.trans hc
      | cons t r => rwa [List.getLast?_cons_cons] at hcount
    obtain ⟨c', hlast', hc'⟩ := hrest.getLast? hf hlast (by rw [hc]; decide)
    have hne : ∀ {ts : List Token} {t : Token}, ts.getLast? = some t → ts.isEmpty = false := by
      intro ts t h
      cases ts with
      | nil => cases h
      | cons _ _ => rfl
    rw [groupAliases, halias, hne hlast] at has
    obtain ⟨bs, hbs, hsame⟩ := aliasAttribute_of_said whole hlast hc hlast'
      ((kind_of_said hc').trans hc) (hrest.filter_said hf) (by
        rintro paren q rfl hparen
        obtain ⟨paren', q', rfl, hparen', hbehind⟩ := hrest.cons hf
        refine ⟨paren', q', rfl, (kind_of_said hparen').trans hparen, fun hat => ?_⟩
        cases q with
        | nil => cases hat
        | cons x q =>
          obtain ⟨x', q'', rfl, hx, -⟩ := (hbehind (by rw [hparen]; decide)).cons hf
          exact beq_iff_eq.mpr ((kind_of_said hx).trans (beq_iff_eq.mp hat))) has
    refine ⟨bs, ?_, hsame⟩
    rw [groupAliases, hword, halias, hne hlast']
    exact hbs

end

/-! ### The walk to the line -/

section

variable {f : Token → Token} (hf : ∀ t, (f t).said = t.said)
include hf

theorem groupStart?_map (depth : Nat) (ts : List Token) :
    groupStart? depth (ts.map f) =
      (groupStart? depth ts).map fun p => (p.1.map f, p.2.map f) := by
  induction ts generalizing depth with
  | nil => rfl
  | cons t ts ih =>
    have hdepth : depthInFront depth (f t) = depthInFront depth t := by
      unfold depthInFront
      rw [kind_of_said (hf t)]
    rw [List.map_cons, groupStart?_cons, groupStart?_cons, hdepth]
    cases depthInFront depth t with
    | none => rfl
    | some d =>
      simp only [ih, Option.map_map]
      rfl

theorem blank_map (t : Token) :
    ((f t).kind == .newline || (f t).isRemark) = (t.kind == .newline || t.isRemark) := by
  have htext : (f t).text = t.text := congrArg (fun s => s.2.1) (hf t)
  rw [Token.isRemark, Token.isRemark, Token.isRequirement, Token.isRequirement, htext,
    kind_of_said (hf t)]

theorem AttributeBlock.map {back rest : List Token} {gs : List (List Token)}
    (h : AttributeBlock back gs rest) :
    AttributeBlock (back.map f) (gs.map (List.map f)) (rest.map f) := by
  induction h with
  | done => exact .done
  | blank hblank _ ih => exact .blank ((blank_map hf _).trans hblank) ih
  | @group t back g front rest gs hclose hstart _ ih =>
    have hstart' : groupStart? 0 (back.map f) = some (g.map f, front.map f) := by
      rw [groupStart?_map hf, hstart]
      rfl
    have hgroup := AttributeBlock.group ((kind_of_said (hf t)).trans hclose) hstart' ih
    have hreverse : (f t :: g.map f).reverse = (t :: g).reverse.map f := by simp
    rw [hreverse] at hgroup
    exact hgroup

theorem EndsBlock.map {back : List Token} (h : EndsBlock back) : EndsBlock (back.map f) := by
  cases back with
  | nil => trivial
  | cons t back =>
    refine ⟨(blank_map hf t).trans h.1, fun hclose => ?_⟩
    rw [groupStart?_map hf, h.2 ((kind_of_said (hf t)).symm.trans hclose)]
    rfl

theorem attributeGroups_map (back : List Token) :
    attributeGroups (back.map f) = (attributeGroups back).map (List.map f) := by
  obtain ⟨gs, rest, hblock, hends⟩ := exists_attributeBlock back
  rw [(hblock.map hf).groups, hblock.groups, attributeGroups_of_endsBlock hends,
    attributeGroups_of_endsBlock (hends.map hf), List.append_nil, List.append_nil]

end

/-- A line with a requirement comment only: the comment and the line end behind it. -/
structure DirectiveLine (r nl : Token) : Prop where
  requirement : r.isRequirement = true
  newline : nl.kind = .newline

namespace DirectiveLine

variable {r nl : Token} (h : DirectiveLine r nl)
include h

theorem comment : r.kind = .comment := by
  have hr := h.requirement
  simp only [Token.isRequirement, Bool.and_eq_true, beq_iff_eq] at hr
  exact hr.1.1

/-- In a group such a line is passed over. -/
theorem groupStart?_eq (depth : Nat) (ts : List Token) :
    groupStart? depth (nl :: r :: ts) =
      (groupStart? depth ts).map fun p => (nl :: r :: p.1, p.2) := by
  have hdepth : depthInFront depth nl = some depth ∧ depthInFront depth r = some depth := by
    simp [depthInFront, h.newline, h.comment]
  rw [groupStart?_cons, hdepth.1]
  simp only
  rw [groupStart?_cons, hdepth.2]
  simp [Option.map_map, Function.comp_def]

/-- In front of attributes such a line ends the block. -/
theorem attributeGroups_eq (ts : List Token) : attributeGroups (nl :: r :: ts) = [] := by
  rw [attributeGroups_blank (by simp [h.newline])]
  apply attributeGroups_of_endsBlock
  refine ⟨by simp [Token.isRemark, h.comment, h.requirement], fun hclose => ?_⟩
  cases h.comment.symm.trans hclose

/-- At the top of the file such a line changes no attributes. -/
theorem attributeGroups_above (front : List Token) :
    attributeGroups (front ++ [nl, r]) = attributeGroups front := by
  obtain ⟨gs, rest, hblock, hends⟩ := exists_attributeBlock front
  rw [(hblock.append [nl, r]).groups, hblock.groups, attributeGroups_of_endsBlock hends]
  congr 1
  cases rest with
  | nil => exact h.attributeGroups_eq []
  | cons t rest =>
    apply attributeGroups_of_endsBlock
    refine ⟨hends.1, fun hclose => ?_⟩
    obtain ⟨d, hmore⟩ := exists_depth (hends.2 hclose)
    rw [List.append_eq, hmore, h.groupStart?_eq]
    rfl

end DirectiveLine

theorem parted_refl (f : Token → Token) (g : List Token) : Parted f g g :=
  ⟨[], [], g, rfl, rfl, by simp, fun hne => absurd rfl hne⟩

theorem parted_map (f : Token → Token) (g : List Token) : Parted f g (g.map f) :=
  ⟨g, [], [], by simp, by simp, by simp, fun hne => absurd rfl hne⟩

/-- If other tokens end the block behind a line, the groups are the same with the line there
    and at the top of the file, but for the line inside one of them. -/
theorem parted_attributeGroups {f : Token → Token} (hf : ∀ t, (f t).said = t.said)
    {r nl r' nl' : Token} (h : DirectiveLine r nl) (h' : DirectiveLine r' nl')
    {behind front : List Token} (hfront : ∀ t ∈ front.head?, t.kind = .newline)
    (hends : ¬ ∃ gs, AttributeBlock behind gs []) :
    List.Forall₂ (Parted f) (attributeGroups (behind ++ (front ++ [nl, r])))
      (attributeGroups (behind ++ nl' :: r' :: front.map f)) := by
  obtain ⟨gs, rest, hblock, hend⟩ := exists_attributeBlock behind
  rw [(hblock.append _).groups, (hblock.append _).groups]
  apply List.rel_append (List.forall₂_same.mpr fun g _ => parted_refl f g)
  rcases rest with _ | ⟨t, rest⟩
  · exact absurd ⟨gs, hblock⟩ hends
  rw [List.cons_append, List.cons_append]
  by_cases hclose : t.kind = .rightBracket
  · obtain ⟨d, hmore⟩ := exists_depth (hend.2 hclose)
    rcases hstart : groupStart? d front with _ | ⟨g, front'⟩
    · -- the last group has no opener, with or without the line
      obtain ⟨d', hbehind⟩ := exists_depth hstart
      rw [attributeGroups_of_endsBlock, attributeGroups_of_endsBlock]
      · exact .nil
      · refine ⟨hend.1, fun _ => ?_⟩
        rw [hmore, h'.groupStart?_eq, groupStart?_map hf, hstart]
        rfl
      · refine ⟨hend.1, fun _ => ?_⟩
        rw [hmore, hbehind, h.groupStart?_eq]
        rfl
    · -- the line stands inside the last group
      have hold : groupStart? 0 (rest ++ (front ++ [nl, r])) =
          some (rest ++ g, front' ++ [nl, r]) := by
        rw [hmore, groupStart?_append _ hstart]
        rfl
      have hnew : groupStart? 0 (rest ++ nl' :: r' :: front.map f) =
          some (rest ++ nl' :: r' :: g.map f, front'.map f) := by
        rw [hmore, h'.groupStart?_eq, groupStart?_map hf, hstart]
        rfl
      rw [attributeGroups_group hclose hold, attributeGroups_group hclose hnew,
        h.attributeGroups_above, attributeGroups_map hf]
      refine .cons ?_ (List.forall₂_map_right_iff.mpr
        (List.forall₂_same.mpr fun g _ => parted_map f g))
      refine ⟨g.reverse, [r', nl'], rest.reverse ++ [t], by simp, by simp, ?_, fun _ => ?_⟩
      · simp [isSignificant, h'.comment, h'.newline]
      · obtain ⟨rfl, mid, o, rfl, -⟩ := groupStart?_shape hstart
        rw [List.getLast?_reverse]
        cases mid with
        | nil => exact ⟨o, rfl, hfront o rfl⟩
        | cons u mid => exact ⟨u, rfl, hfront u rfl⟩
  · have hany : ∀ more, EndsBlock (t :: (rest ++ more)) :=
      fun more => ⟨hend.1, fun h => absurd h hclose⟩
    rw [attributeGroups_of_endsBlock (hany _), attributeGroups_of_endsBlock (hany _)]
    exact .nil

/-! ### The names of all groups -/

/-- Groups that are read declare the same names with a line put in. -/
theorem mapM_groupAliases {f : Token → Token} (hf : ∀ t, (f t).said = t.said) {sc : Script}
    (whole : Script)
    {gs gs' : List (List Token)} (h : List.Forall₂ (Parted f) gs gs')
    (hbrackets : ∀ g ∈ gs, ∃ o mid c, g = o :: (mid ++ [c]) ∧ o.kind = .leftBracket ∧
      c.kind = .rightBracket)
    {ass : List (List AliasDeclaration)} (hread : gs.mapM sc.groupAliases = .ok ass) :
    ∃ bss, gs'.mapM whole.groupAliases = .ok bss ∧
      bss.flatten.map AliasDeclaration.name = ass.flatten.map AliasDeclaration.name := by
  induction h generalizing ass with
  | nil =>
    cases hread
    exact ⟨[], rfl, rfl⟩
  | @cons g g' gs gs' hg _ ih =>
    rw [List.mapM_cons] at hread
    obtain ⟨as, has, hread⟩ := bind_eq_ok.mp hread
    obtain ⟨rest, hrest, hread⟩ := bind_eq_ok.mp hread
    cases hread
    rw [List.forall_mem_cons] at hbrackets
    obtain ⟨bs, hbs, hsame⟩ := hg.declares hf whole hbrackets.1 ⟨as, has, rfl⟩
    obtain ⟨bss, hbss, hall⟩ := ih hbrackets.2 hrest
    refine ⟨bs :: bss, ?_, ?_⟩
    · rw [List.mapM_cons, hbs]
      simp only [bind, Except.bind, hbss]
      rfl
    · rw [List.flatten_cons, List.flatten_cons, List.map_append, List.map_append, hsame, hall]

end ScriptModule.Script
