/-
  ScriptModule/Proofs/Routing.lean
  ================================
  **Which way a source goes.**  A source with a parameter keyword outside all brackets is
  taken for an entry point, and statements may use that word too.  If its brackets nest, a
  source of statements is taken for one only if a statement has the word as a name, as a
  base type, in an import or in an expression.
-/
import ScriptModule.Draft.Contribution
import ScriptModule.Proofs.Coverage
import ScriptModule.Proofs.EntryBody

namespace ScriptModule

/-! ### Brackets that nest -/

/-- Whether each closer closes the innermost of the open groups; at the top level it may
    close nothing, and groups may stay open. -/
def nests (groups : List TokenKind) : List Token → Bool
  | [] => true
  | t :: ts =>
    (!t.kind.isCloser || groups.head?.all (fun g => g.closer? == some t.kind)) &&
      nests (groupsAfter groups t.kind) ts

/-- The tokens that stand outside all groups. -/
def bareTokens (groups : List TokenKind) : List Token → List Token
  | [] => []
  | t :: ts => (if groups.isEmpty then [t] else []) ++ bareTokens (groupsAfter groups t.kind) ts

theorem nests_cons {groups : List TokenKind} {t : Token} {ts : List Token} :
    nests groups (t :: ts) = true ↔
      (t.kind.isCloser = true → ∀ g ∈ groups.head?, g.closer? = some t.kind) ∧
        nests (groupsAfter groups t.kind) ts = true := by
  rw [nests, Bool.and_eq_true]
  apply and_congr_left'
  cases t.kind.isCloser <;> cases groups <;> simp

theorem mem_bareTokens_cons {groups : List TokenKind} {p t : Token} {ts : List Token}
    (h : p ∈ bareTokens groups (t :: ts)) :
    p = t ∨ p ∈ bareTokens (groupsAfter groups t.kind) ts := by
  rw [bareTokens, List.mem_append] at h
  refine h.imp ?_ id
  intro hp
  split at hp
  · exact List.mem_singleton.mp hp
  · cases hp

/-- A parameter block is found exactly if a parameter keyword stands outside all groups. -/
theorem paramIndexFrom_isSome {groups : List TokenKind} {ts : List Token} :
    (paramIndexFrom groups ts).isSome = true ↔
      ∃ p ∈ bareTokens groups ts, p.kind = .paramWord := by
  induction ts generalizing groups with
  | nil => simp [paramIndexFrom, bareTokens]
  | cons t ts ih =>
    rw [paramIndexFrom, bareTokens]
    by_cases hbare : groups.isEmpty = true
    · by_cases hkind : t.kind = .paramWord
      · simp [hbare, hkind]
      · simp [hbare, hkind, ih]
    · simp [hbare, ih]

section

variable {g k : TokenKind} {groups : List TokenKind}

theorem groupsAfter_opener (hopener : k.isOpener = true) : groupsAfter groups k = k :: groups :=
  if_pos hopener

theorem groupsAfter_closer (hcloser : k.isCloser = true) (hg : g.closer? = some k) :
    groupsAfter (g :: groups) k = groups := by
  simp [groupsAfter, isOpener_of_isCloser hcloser, hcloser, closeGroup, hg]

theorem groupsAfter_plain (hopener : ¬ k.isOpener = true) (hcloser : ¬ k.isCloser = true) :
    groupsAfter groups k = groups := by
  rw [groupsAfter, if_neg hopener, if_neg hcloser]

end

/-- If brackets nest, counting them and matching them ends a group at the same closer. -/
theorem bareTokens_groupEnd? {inner groups : List TokenKind} {g : TokenKind}
    {ts rest : List Token} {close : Token} (hend : groupEnd? inner.length ts = some (close, rest))
    (hnests : nests (inner ++ g :: groups) ts = true) :
    nests groups rest = true ∧ bareTokens (inner ++ g :: groups) ts = bareTokens groups rest := by
  induction ts generalizing inner with
  | nil => cases hend
  | cons t ts ih =>
    obtain ⟨hmatch, hmore⟩ := nests_cons.mp hnests
    have hbare : bareTokens (inner ++ g :: groups) (t :: ts) =
        bareTokens (groupsAfter (inner ++ g :: groups) t.kind) ts := by
      cases inner <;> rfl
    rw [hbare]
    unfold groupEnd? at hend
    by_cases hopener : t.kind.isOpener = true
    · have hpush : groupsAfter (inner ++ g :: groups) t.kind =
          (t.kind :: inner) ++ g :: groups := groupsAfter_opener hopener
      rw [if_pos hopener] at hend
      rw [hpush] at hmore ⊢
      exact ih hend hmore
    · rw [if_neg hopener] at hend
      by_cases hcloser : t.kind.isCloser = true
      · rw [if_pos hcloser] at hend
        cases inner with
        | nil =>
          cases hend
          have hpop : groupsAfter (g :: groups) close.kind = groups :=
            groupsAfter_closer hcloser (hmatch hcloser g rfl)
          rw [List.nil_append, hpop] at hmore ⊢
          exact ⟨hmore, rfl⟩
        | cons k inner =>
          have hpop : groupsAfter (k :: inner ++ g :: groups) t.kind = inner ++ g :: groups :=
            groupsAfter_closer hcloser (hmatch hcloser k rfl)
          rw [hpop] at hmore ⊢
          exact ih hend hmore
      · rw [if_neg hcloser] at hend
        rw [groupsAfter_plain hopener hcloser] at hmore ⊢
        exact ih hend hmore

/-! ### Readers that come past a keyword -/

/-- Reading on to `rest` comes past no parameter keyword outside all groups, those aside
    that are used. -/
def Passes (uses : Token → Prop) (ts rest : List Token) : Prop :=
  ∃ front, ts = front ++ rest ∧ ∀ groups, nests groups ts = true →
    ∃ groups', nests groups' rest = true ∧ ∀ p ∈ bareTokens groups ts, p.kind = .paramWord →
      p ∈ front ∧ uses p ∨ p ∈ bareTokens groups' rest

/-- No keyword is used. -/
def unused (_ : Token) : Prop := False

namespace Passes

variable {uses uses' : Token → Prop} {ts mid rest : List Token} {t : Token}

theorem refl (uses : Token → Prop) (ts : List Token) : Passes uses ts ts :=
  ⟨[], rfl, fun groups hnests => ⟨groups, hnests, fun _ hp _ => .inr hp⟩⟩

theorem mono (h : Passes uses ts rest) (hle : ∀ p, uses p → uses' p) : Passes uses' ts rest := by
  obtain ⟨front, hfront, hpasses⟩ := h
  refine ⟨front, hfront, ?_⟩
  intro groups hnests
  obtain ⟨groups', hnests', hbare⟩ := hpasses groups hnests
  refine ⟨groups', hnests', ?_⟩
  intro p hp hkind
  exact (hbare p hp hkind).imp (And.imp_right (hle p)) id

theorem of_unused (h : Passes unused ts rest) : Passes uses ts rest := h.mono fun _ => False.elim

theorem trans (h : Passes uses ts mid) (h' : Passes uses mid rest) : Passes uses ts rest := by
  obtain ⟨front, rfl, hpasses⟩ := h
  obtain ⟨front', rfl, hpasses'⟩ := h'
  refine ⟨front ++ front', (List.append_assoc ..).symm, ?_⟩
  intro groups hnests
  obtain ⟨groups', hnests', hbare⟩ := hpasses groups hnests
  obtain ⟨groups'', hnests'', hbare'⟩ := hpasses' groups' hnests'
  refine ⟨groups'', hnests'', ?_⟩
  intro p hp hkind
  rcases hbare p hp hkind with ⟨hmem, huse⟩ | hp
  · exact .inl ⟨List.mem_append_left _ hmem, huse⟩
  · refine (hbare' p hp hkind).imp ?_ id
    rintro ⟨hmem, huse⟩
    exact ⟨List.mem_append_right _ hmem, huse⟩

/-- One token is come past. -/
theorem token (t : Token) (ts : List Token) : Passes (· = t) (t :: ts) ts := by
  refine ⟨[t], rfl, ?_⟩
  intro groups hnests
  refine ⟨_, (nests_cons.mp hnests).2, ?_⟩
  intro p hp _
  refine (mem_bareTokens_cons hp).imp ?_ id
  rintro rfl
  exact ⟨List.mem_singleton_self p, rfl⟩

/-- A token of another kind is come past. -/
theorem other (ht : t.kind ≠ .paramWord) (ts : List Token) : Passes unused (t :: ts) ts := by
  refine ⟨[t], rfl, ?_⟩
  intro groups hnests
  refine ⟨_, (nests_cons.mp hnests).2, ?_⟩
  intro p hp hkind
  refine (mem_bareTokens_cons hp).elim ?_ .inr
  rintro rfl
  exact absurd hkind ht

theorem ofKind {k : TokenKind} (ht : t.kind = k) (hk : k ≠ .paramWord) :
    Passes unused (t :: ts) ts := other (ht ▸ hk) ts

theorem append (front rest : List Token) : Passes (· ∈ front) (front ++ rest) rest := by
  induction front with
  | nil => exact .refl _ _
  | cons t front ih =>
    have hfirst : Passes (· ∈ t :: front) (t :: (front ++ rest)) (front ++ rest) :=
      (token t _).mono fun p hp => hp ▸ List.mem_cons_self
    exact hfirst.trans (ih.mono fun p => List.mem_cons_of_mem t)

theorem dropWhile {f : Token → Bool} (hf : ∀ t, f t = true → t.kind ≠ .paramWord)
    (ts : List Token) : Passes unused ts (ts.dropWhile f) := by
  induction ts with
  | nil => exact .refl _ _
  | cons t ts ih =>
    rw [List.dropWhile_cons]
    split
    · next ht => exact (other (hf t ht) ts).trans ih
    · exact .refl _ _

/-- A group in brackets is come past as a whole. -/
theorem group {close : Token} (ht : t.kind.isOpener = true)
    (hend : groupEnd? 0 ts = some (close, rest)) : Passes unused (t :: ts) rest := by
  obtain ⟨front, hfront⟩ := (List.suffix_cons close rest).trans (groupEnd?_suffix hend)
  refine ⟨t :: front, congrArg (t :: ·) hfront.symm, ?_⟩
  intro groups hnests
  have hmore := (nests_cons.mp hnests).2
  rw [groupsAfter_opener ht] at hmore
  obtain ⟨hrest, hbare⟩ := @bareTokens_groupEnd? [] _ _ _ _ _ hend hmore
  refine ⟨groups, hrest, ?_⟩
  intro p hp hkind
  rcases mem_bareTokens_cons hp with rfl | hp
  · rw [hkind] at ht
    cases ht
  · rw [groupsAfter_opener ht] at hp
    exact .inr (hbare ▸ hp)

/-- A parameter keyword outside all groups is used, or stands behind what is come past. -/
theorem bare (h : Passes uses ts rest) {groups : List TokenKind}
    (hnests : nests groups ts = true) {p : Token} (hp : p ∈ bareTokens groups ts)
    (hkind : p.kind = .paramWord) :
    (∃ front, ts = front ++ rest ∧ p ∈ front ∧ uses p) ∨
      ∃ groups', nests groups' rest = true ∧ p ∈ bareTokens groups' rest := by
  obtain ⟨front, hfront, hpasses⟩ := h
  obtain ⟨groups', hnests', hbare⟩ := hpasses groups hnests
  refine (hbare p hp hkind).imp ?_ fun hp => ⟨groups', hnests', hp⟩
  rintro ⟨hmem, huse⟩
  exact ⟨front, hfront, hmem, huse⟩

theorem bare_of_unused (h : Passes unused ts rest) {groups : List TokenKind}
    (hnests : nests groups ts = true) {p : Token} (hp : p ∈ bareTokens groups ts)
    (hkind : p.kind = .paramWord) :
    ∃ groups', nests groups' rest = true ∧ p ∈ bareTokens groups' rest := by
  rcases h.bare hnests hp hkind with ⟨-, -, -, huse⟩ | hbehind
  · cases huse
  · exact hbehind

end Passes

/-! ### Inside braces -/

/-- Whether one of the open groups ends at a closing brace. -/
def InBraces (groups : List TokenKind) : Prop := ∃ g ∈ groups, g.closer? = some .rightBrace

/-- Reading on to `rest` stays inside of braces, where no token stands outside all groups. -/
def Hides (ts rest : List Token) : Prop :=
  ∀ groups, InBraces groups → nests groups ts = true → ∃ groups', InBraces groups' ∧
    nests groups' rest = true ∧ bareTokens groups ts = bareTokens groups' rest

theorem InBraces.bareTokens_cons {groups : List TokenKind} (h : InBraces groups) (t : Token)
    (ts : List Token) :
    bareTokens groups (t :: ts) = bareTokens (groupsAfter groups t.kind) ts := by
  obtain ⟨g, hg, -⟩ := h
  cases groups with
  | nil => cases hg
  | cons => rfl

namespace Hides

variable {ts mid rest : List Token} {t close : Token}

theorem refl (ts : List Token) : Hides ts ts :=
  fun groups hin hnests => ⟨groups, hin, hnests, rfl⟩

theorem trans (h : Hides ts mid) (h' : Hides mid rest) : Hides ts rest := by
  intro groups hin hnests
  obtain ⟨groups', hin', hnests', hbare⟩ := h groups hin hnests
  obtain ⟨groups'', hin'', hnests'', hbare'⟩ := h' groups' hin' hnests'
  exact ⟨groups'', hin'', hnests'', hbare.trans hbare'⟩

/-- Only a closing brace may lead out of braces. -/
theorem token (ht : t.kind ≠ .rightBrace) (ts : List Token) : Hides (t :: ts) ts := by
  intro groups hin hnests
  obtain ⟨hmatch, hmore⟩ := nests_cons.mp hnests
  refine ⟨_, ?_, hmore, hin.bareTokens_cons t ts⟩
  obtain ⟨g, hg, hbrace⟩ := hin
  by_cases hopener : t.kind.isOpener = true
  · rw [groupsAfter_opener hopener]
    exact ⟨g, List.mem_cons_of_mem _ hg, hbrace⟩
  · by_cases hcloser : t.kind.isCloser = true
    · cases groups with
      | nil => cases hg
      | cons top groups =>
        have htop := hmatch hcloser top rfl
        rw [groupsAfter_closer hcloser htop]
        rcases List.mem_cons.mp hg with rfl | hg
        · exact absurd (Option.some.inj (htop.symm.trans hbrace)) ht
        · exact ⟨g, hg, hbrace⟩
    · rw [groupsAfter_plain hopener hcloser]
      exact ⟨g, hg, hbrace⟩

theorem group (ht : t.kind.isOpener = true) (hend : groupEnd? 0 ts = some (close, rest)) :
    Hides (t :: ts) rest := by
  intro groups hin hnests
  have hmore := (nests_cons.mp hnests).2
  rw [groupsAfter_opener ht] at hmore
  obtain ⟨hrest, hbare⟩ := @bareTokens_groupEnd? [] _ _ _ _ _ hend hmore
  refine ⟨groups, hin, hrest, ?_⟩
  rw [hin.bareTokens_cons, groupsAfter_opener ht]
  exact hbare

theorem dropWhile {f : Token → Bool} (hf : ∀ t, f t = true → t.kind ≠ .rightBrace)
    (ts : List Token) : Hides ts (ts.dropWhile f) := by
  induction ts with
  | nil => exact .refl _
  | cons t ts ih =>
    rw [List.dropWhile_cons]
    split
    · next ht => exact (token (hf t ht) ts).trans ih
    · exact .refl _

/-- What stands between braces is come past as a whole. -/
theorem passes (h : Hides ts (close :: rest)) (ht : t.kind = .leftBrace)
    (hsuffix : close :: rest <:+ ts) : Passes unused (t :: ts) rest := by
  obtain ⟨front, hfront⟩ := (List.suffix_cons close rest).trans hsuffix
  refine ⟨t :: front, congrArg (t :: ·) hfront.symm, ?_⟩
  intro groups hnests
  have hmore := (nests_cons.mp hnests).2
  rw [ht, groupsAfter_opener rfl] at hmore
  obtain ⟨groups', hin, hnests', hbare⟩ :=
    h (.leftBrace :: groups) ⟨_, List.mem_cons_self, rfl⟩ hmore
  refine ⟨_, (nests_cons.mp hnests').2, ?_⟩
  intro p hp hkind
  rcases mem_bareTokens_cons hp with rfl | hp
  · cases hkind.symm.trans ht
  · rw [ht, groupsAfter_opener rfl, hbare, hin.bareTokens_cons] at hp
    exact .inr hp

end Hides

/-! ### What the grammar comes past -/

namespace Grammar

open Script

theorem Name.passes {ts rest : List Token} {n : Text} (h : Name ts n rest) :
    Passes (fun p => n = p.text) ts rest := by
  obtain ⟨-⟩ := h
  exact (Passes.token _ _).mono fun p hp => hp ▸ rfl

theorem skipBlank_passes (ts : List Token) : Passes unused ts (skipBlank ts) := by
  apply Passes.dropWhile
  intro t ht hkind
  simp [Token.isRemark, hkind] at ht

theorem Body.passes {ts rest : List Token} {close : Token} (h : Body ts close rest) :
    Passes unused ts rest := by
  obtain ⟨hblank, hbrace, hend⟩ := h
  have hopener : ∀ {t : Token}, t.kind = .leftBrace → t.kind.isOpener = true := by
    intro t ht
    rw [ht]
    rfl
  have hskip := skipBlank_passes ts
  rw [hblank] at hskip
  exact hskip.trans (Passes.group (hopener hbrace) hend)

theorem Attributes.passes {sc : Script} {ts rest : List Token} {as : List Text}
    (h : Attributes sc ts as rest) : Passes unused ts rest := by
  induction h with
  | nil => exact .refl _ _
  | @cons t close ts mid rest as ht hend _ ih =>
    have hafter : Passes unused mid (afterAttribute mid) := by
      unfold afterAttribute
      split
      · exact .refl _ _
      · exact skipBlank_passes mid
    exact (Passes.group (by rw [ht]; rfl) hend).trans (hafter.trans ih)

theorem Underlying.passes {ts rest : List Token} {u : Option Text} (h : Underlying ts u rest) :
    Passes (fun p => u = Option.some p.text) ts rest := by
  cases h with
  | none => exact .refl _ _
  | some hcolon hname =>
    refine (Passes.ofKind hcolon (by decide)).of_unused.trans (hname.passes.mono ?_)
    exact fun p hp => congrArg _ hp

theorem Value.hides {sc : Script} {ts rest : List Token} {v : Option Text}
    (h : Value sc ts v rest) : Hides ts rest := by
  cases h with
  | none => exact .refl _
  | some hequals =>
    have hpart : ∀ t, isValuePart t = true → t.kind ≠ .rightBrace := by
      intro t ht hkind
      simp [isValuePart, hkind] at ht
    exact (Hides.token (by simp [hequals]) _).trans (.dropWhile hpart _)

theorem Members.hides {sc : Script} {ts rest : List Token} {ms : List EnumMember}
    {close : Token} (h : Members sc ts ms close rest) : Hides ts (close :: rest) := by
  have hgaps : ∀ {us vs : List Token}, us.dropWhile isMemberGap = vs → Hides us vs := by
    rintro us vs rfl
    apply Hides.dropWhile
    intro t ht hkind
    simp [isMemberGap, hkind] at ht
  induction h with
  | nil hgap => exact hgaps hgap
  | group hgap hopen hend _ ih =>
    exact (hgaps hgap).trans ((Hides.group (by rw [hopen]; rfl) hend).trans ih)
  | cons hgap hname hvalue _ ih =>
    have hfirst := Hides.token (by rintro hkind; rw [hkind] at hname; cases hname)
    exact (hgaps hgap).trans ((hfirst _).trans (hvalue.hides.trans ih))

theorem infix_pending (base : Text) : base <:+: (pending base).flatten := by
  unfold pending
  split
  · next hempty => simp [List.isEmpty_iff.mp hempty]
  · simp

theorem infix_baseTypesFrom (depth : Int) (base : Text) (ts : List Token) :
    base <:+: (baseTypesFrom depth base ts).1.flatten := by
  induction ts generalizing depth base with
  | nil => exact infix_pending base
  | cons t ts ih =>
    rw [baseTypesFrom]
    split
    · exact infix_pending base
    · split
      · rw [List.flatten_cons]
        exact (List.prefix_append base _).isInfix
      · exact (List.prefix_append base t.text).isInfix.trans (ih _ _)

theorem baseTypesFrom_passes (depth : Int) (base : Text) (ts : List Token) :
    Passes (fun p => p.text <:+: (baseTypesFrom depth base ts).1.flatten) ts
      (baseTypesFrom depth base ts).2 := by
  induction ts generalizing depth base with
  | nil => exact .refl _ _
  | cons t ts ih =>
    rw [baseTypesFrom]
    split
    · exact .refl _ _
    · split
      · next hcomma =>
        have hkind : t.kind = .comma := of_decide_eq_true ((Bool.and_eq_true _ _).mp hcomma).1
        refine (Passes.ofKind hkind (by decide)).of_unused.trans ((ih 0 []).mono ?_)
        intro p hp
        rw [List.flatten_cons]
        exact hp.trans (List.suffix_append base _).isInfix
      · have hbase := infix_baseTypesFrom (depth + nesting t.kind) (base ++ t.text) ts
        refine ((Passes.token t ts).mono ?_).trans (ih _ _)
        rintro p rfl
        exact (List.suffix_append base _).isInfix.trans hbase

theorem BaseTypes.passes {ts rest : List Token} {bs : List Text} (h : BaseTypes ts bs rest) :
    Passes (fun p => p.text <:+: bs.flatten) ts rest := by
  cases h with
  | none => exact .refl _ _
  | @some t ts _ _ hcolon heq _ =>
    have hbases := baseTypesFrom_passes 0 [] ts
    rw [heq] at hbases
    exact (Passes.ofKind hcolon (by decide)).of_unused.trans hbases

theorem Parameters.passes {ts rest : List Token} (h : Parameters ts rest) :
    Passes unused ts rest := by
  cases h with
  | none => exact .refl _ _
  | some hparen hend => exact .group (by rw [hparen]; rfl) hend

/-- A token is the scope that stands in front of the name of a function. -/
def IsScopeOf (n : Text) (ts : List Token) (p : Token) : Prop :=
  ∃ colon name, [p, colon, name] <:+: ts ∧ colon.kind = .colon ∧ name.text = n

theorem FunctionName.passes {ts rest : List Token} {n : Text} (h : FunctionName ts n rest) :
    Passes (fun p => n = p.text ∨ IsScopeOf n ts p) ts rest := by
  cases h
  · next hname => exact hname.passes.mono fun p hp => .inl hp
  · next mid colon word hscope hcolon hname =>
    have hcome : Passes unused (colon :: mid) mid := .ofKind hcolon (by decide)
    have hpasses := hname.passes
    cases hscope
    cases hname
    next scope _ name _ =>
      have hscope : IsScopeOf name.text (scope :: colon :: name :: rest) scope :=
        ⟨colon, name, (List.prefix_append [scope, colon, name] rest).isInfix, hcolon, rfl⟩
      refine ((Passes.token scope _).mono ?_).trans (hcome.of_unused.trans (hpasses.mono ?_))
      · rintro p rfl
        exact .inr hscope
      · exact fun p hp => .inl hp

theorem Expression.passes {before : Option TokenKind} {ts es rest : List Token}
    (h : Expression before ts es rest) : Passes (fun _ => True) ts rest := by
  induction h with
  | atEnd => exact .refl _ _
  | stop => exact .refl _ _
  | group _ hopener hend _ ih => exact (Passes.group hopener hend).of_unused.trans ih
  | @token _ t ts _ _ _ _ _ ih => exact ((Passes.token t ts).mono fun _ _ => trivial).trans ih

theorem Importing.passes {sc : Script} {ts rest : List Token} {i : Import} {last : Token}
    (h : Importing sc ts i last rest) : Passes (fun _ => True) ts rest := by
  obtain ⟨-, hname⟩ := h
  rename_i k first r more
  have hall := Passes.append (r.takeWhile isNamePart) (r.dropWhile isNamePart)
  rw [List.takeWhile_append_dropWhile] at hall
  exact ((Passes.token k r).mono fun _ _ => trivial).trans (hall.mono fun _ _ => trivial)

/-! ### Uses of a keyword -/

/-- How a statement may use a token that stands outside all brackets among `ts`: as a name,
    in a base type, as a scope, or anywhere in an import and in an expression. -/
def uses (ts : List Token) (p : Token) : Content → Prop
  | .enumeration d => d.name = p.text ∨ d.underlyingType = some p.text
  | .classType c => c.name = p.text ∨ p.text <:+: c.baseTypes.flatten
  | .function n => n = p.text ∨ IsScopeOf n ts p
  | .importing _ => True
  | .assignment _ => True
  | .requirement _ => False
  | .other => False

theorem IsScopeOf.mono {n : Text} {ts us : List Token} {p : Token} (h : IsScopeOf n ts p)
    (hsuffix : ts <:+ us) : IsScopeOf n us p := by
  obtain ⟨colon, name, hin, hkind, hname⟩ := h
  exact ⟨colon, name, hin.trans hsuffix.isInfix, hkind, hname⟩

/-- A declaration uses the parameter keywords outside all brackets that it takes in. -/
theorem Declaration.passes {sc : Script} {ts rest : List Token} {content : Content}
    {last : Token} (h : Declaration sc ts content last rest) :
    Passes (uses ts · content) ts rest := by
  cases h with
  | @enumeration r1 r2 r3 inner _ t brace _ attrs n u ms hattributes hkind hname hunder hblank
      hbrace hmembers =>
    have hkeyword : Passes unused (t :: r1) r1 := .ofKind hkind (by decide)
    have hskip := skipBlank_passes r3
    rw [hblank] at hskip
    have hbody := hmembers.hides.passes hbrace hmembers.suffix
    refine (hattributes.passes.trans hkeyword).of_unused.trans ?_
    refine (hname.passes.mono fun p hp => .inl hp).trans ?_
    refine (hunder.passes.mono fun p hp => .inr hp).trans ?_
    exact (hskip.trans hbody).of_unused
  | @classType r1 r2 r3 _ t _ attrs n bs hattributes hkind hname hbases hbody =>
    have hkeyword : Passes unused (t :: r1) r1 := .ofKind hkind (by decide)
    refine (hattributes.passes.trans hkeyword).of_unused.trans ?_
    refine (hname.passes.mono fun p hp => .inl hp).trans ?_
    exact (hbases.passes.mono fun p hp => .inr hp).trans hbody.passes.of_unused
  | @function r1 r2 r3 _ t _ n hattributes hkind hname hparameters hbody =>
    have hkeyword : Passes unused (t :: r1) r1 := .ofKind hkind (by decide)
    have hbehind : r1 <:+ ts := (List.suffix_cons t r1).trans hattributes.suffix
    refine (hattributes.passes.trans hkeyword).of_unused.trans ?_
    refine (hname.passes.mono fun p hp => hp.imp_right (·.mono hbehind)).trans ?_
    exact (hparameters.passes.trans hbody.passes).of_unused
  | @assignment r es _ more t e start attrs hattributes hkind hequals hexpression _ =>
    have htarget : Passes unused (t :: e :: r) (e :: r) := .ofKind hkind (by decide)
    have hsign : Passes unused (e :: r) r := .ofKind hequals (by decide)
    have hfront := hattributes.passes.trans (htarget.trans (hsign.trans (skipBlank_passes r)))
    exact hfront.of_unused.trans (hexpression.passes.mono fun _ _ => trivial)

theorem uses_mono {content : Content} {ts us : List Token} {p : Token} (h : uses ts p content)
    (hsuffix : ts <:+ us) : uses us p content := by
  cases content with
  | function n => exact h.imp_right (·.mono hsuffix)
  | _ => exact h

/-- Whether a statement goes on from its first token over the token `p`. -/
def GoesOver (sc : Script) (st : Statement) (p : Token) : Prop :=
  ∃ first run last, first :: run <:+: sc.tokens ∧ p ∈ run ∧ run.getLast? = some last ∧
    st = stated sc st.content first last

/-- A statement goes over the keywords that are come past in reading it. -/
theorem goesOver_stated {sc : Script} {first last p : Token} {ts front tail rest : List Token}
    (content : Content) (hin : first :: ts <:+ sc.tokens) (hfront : first :: ts = front ++ rest)
    (hextent : last :: (tail ++ rest) <:+ first :: ts)
    (htail : ∀ t ∈ tail, isSignificant t = false) (hfirst : first.kind ≠ .paramWord)
    (hp : p ∈ front) (hkind : p.kind = .paramWord) :
    GoesOver sc (stated sc content first last) p := by
  obtain ⟨before, hbefore⟩ := hextent
  have hsplit : front = before ++ [last] ++ tail := by
    apply (List.append_left_inj rest).mp
    rw [← hfront, ← hbefore]
    simp
  have hmem : p ∈ before ++ [last] := by
    rw [hsplit] at hp
    refine (List.mem_append.mp hp).resolve_right fun htailp => ?_
    have hidle := htail p htailp
    simp [isSignificant, hkind] at hidle
  have hwhole : first :: ts = (before ++ [last]) ++ (tail ++ rest) := by simp [← hbefore]
  obtain ⟨prior, hprior⟩ := hin
  cases before with
  | nil =>
    obtain rfl : p = last := by simpa using hmem
    obtain rfl : first = p := (List.cons.inj hwhole).1
    exact absurd hkind hfirst
  | cons head before =>
    obtain rfl : first = head := (List.cons.inj hwhole).1
    have hrun : p ∈ before ++ [last] := by
      refine (List.mem_cons.mp hmem).resolve_left ?_
      rintro rfl
      exact hfirst hkind
    refine ⟨first, before ++ [last], last, ⟨prior, tail ++ rest, ?_⟩, hrun, by simp, rfl⟩
    rw [← hprior, hwhole]
    simp

/-- Whether one of the statements uses a token. -/
def Used (sc : Script) (sts : List Statement) (p : Token) : Prop :=
  ∃ st ∈ sts, GoesOver sc st p ∧ uses sc.tokens p st.content

theorem Used.cons {sc : Script} {sts : List Statement} {p : Token} (h : Used sc sts p)
    (st : Statement) : Used sc (st :: sts) p := by
  obtain ⟨u, hu, huse⟩ := h
  exact ⟨u, List.mem_cons_of_mem st hu, huse⟩

/-- In a row of statements whose brackets nest, a parameter keyword outside all brackets is
    used by one of them. -/
theorem Statements.used {sc : Script} {ts : List Token} {sts : List Statement}
    (h : Statements sc ts sts) (hin : ts <:+ sc.tokens) {groups : List TokenKind}
    (hnests : nests groups ts = true) {p : Token} (hp : p ∈ bareTokens groups ts)
    (hkind : p.kind = .paramWord) : Used sc sts p := by
  induction h generalizing groups with
  | nil => cases hp
  | @separator t ts sts hseparator _ ih =>
    have hother : t.kind ≠ .paramWord := by
      intro ht
      simp [isSeparator, Token.isRemark, ht] at hseparator
    obtain ⟨_, hnests', hp'⟩ := (Passes.other hother ts).bare_of_unused hnests hp hkind
    exact ih ((List.suffix_cons t ts).trans hin) hnests' hp'
  | @requirement t ts st sts hrequirement _ _ ih =>
    have hother : t.kind ≠ .paramWord := by simp [comment_of_isRequirement hrequirement]
    obtain ⟨_, hnests', hp'⟩ := (Passes.other hother ts).bare_of_unused hnests hp hkind
    exact (ih ((List.suffix_cons t ts).trans hin) hnests' hp').cons st
  | @importing t last ts rest i sts husing himport _ ih =>
    have hother : t.kind ≠ .paramWord := by simp [husing]
    have hextent : last :: ([] ++ rest) <:+ t :: ts := himport.extent.trans (List.suffix_cons t ts)
    have hpasses := (Passes.other hother ts).of_unused.trans himport.passes
    rcases hpasses.bare hnests hp hkind with ⟨front, hfront, hmem, -⟩ | ⟨_, hnests', hp'⟩
    · have hover := goesOver_stated (.importing i) hin hfront hextent (by simp) hother hmem hkind
      exact ⟨_, List.mem_cons_self, hover, trivial⟩
    · have hbehind := (List.suffix_cons last rest).trans hextent
      exact (ih (hbehind.trans hin) hnests' hp').cons _
  | @declaration t last ts rest content sts hdeclaration _ ih =>
    have hother : t.kind ≠ .paramWord := by
      intro ht
      simpa [ht] using hdeclaration.head_kind
    obtain ⟨tail, hextent, htail⟩ := hdeclaration.extent
    rcases hdeclaration.passes.bare hnests hp hkind with
      ⟨front, hfront, hmem, huse⟩ | ⟨_, hnests', hp'⟩
    · have hover := goesOver_stated content hin hfront hextent htail hother hmem hkind
      exact ⟨_, List.mem_cons_self, hover, uses_mono huse hin⟩
    · have hbehind := (List.suffix_append tail rest).trans ((List.suffix_cons last _).trans hextent)
      exact (ih (hbehind.trans hin) hnests' hp').cons _

end Grammar

/-! ### Routing -/

/-- A source of statements whose brackets nest is taken for an entry point exactly if one of
    them uses a parameter keyword outside all brackets; otherwise it contributes them. -/
theorem classify_routing {filename source : Text} {sts : List Statement} {s : Scan}
    (h : Script.classify (some filename) source = .ok sts) (hscan : scan source = .ok s)
    (hnests : nests [] s.tokens = true) :
    let sc : Script := ⟨some filename, source, s.tokens, s.stop⟩
    let used := ∃ p ∈ bareTokens [] s.tokens, p.kind = .paramWord ∧ Grammar.Used sc sts p
    (sc.isEntryPoint = true ↔ used) ∧
    (¬ used → ∀ known position, sourceContributions known source filename position =
      .event (.stage "Ingesting" filename position) ::
        Contribution.debug
            ("'" ++ filename ++ "' has " ++ Text.ofNat sts.length ++ " statement(s)") ::
          sts.flatMap Statement.contributions) := by
  intro sc used
  obtain ⟨s', hs', hstatements⟩ := classify_iff.mp h
  cases hs'.symm.trans hscan
  have hentry : sc.isEntryPoint = true ↔ used := by
    refine paramIndexFrom_isSome.trans (exists_congr fun p => and_congr_right fun hp => ?_)
    exact ⟨fun hkind => ⟨hkind, hstatements.used (List.suffix_refl _) hnests hp hkind⟩, And.left⟩
  refine ⟨hentry, ?_⟩
  intro hfree known position
  have hsts : sc.statements = .ok sts := Grammar.statementsFrom_iff.mpr hstatements
  simp only [sourceContributions, hscan]
  rw [if_neg (fun hsome => hfree (hentry.mp hsome)), Script.statementContributions, hsts]

/-- Keywords as names, and parameter blocks inside functions and script blocks: statements. -/
theorem classify_routing_names :
    ∃ source s sts, source = "enum Class \x7b param = 1 \x7d
function using:enum($a) \x7b param($b) \x7d
[Attr(param)] class Function : Using \x7b param([int]$c) \x7d
$x = \x7b param($d) \x7d".toList ∧ Script.classify (some "a.ps1".toList) source = .ok sts ∧
      sts.length = 4 ∧ scan source = .ok s ∧ nests [] s.tokens = true ∧
      ∀ known position, sourceContributions known source "a.ps1".toList position =
        .event (.stage "Ingesting" "a.ps1".toList position) ::
          Contribution.debug
              ("'" ++ "a.ps1".toList ++ "' has " ++ Text.ofNat sts.length ++ " statement(s)") ::
            sts.flatMap Statement.contributions := by
  have hrun : ((Script.classify (some "a.ps1".toList) "enum Class \x7b param = 1 \x7d
function using:enum($a) \x7b param($b) \x7d
[Attr(param)] class Function : Using \x7b param([int]$c) \x7d
$x = \x7b param($d) \x7d".toList).toOption.any fun sts => (scan "enum Class \x7b param = 1 \x7d
function using:enum($a) \x7b param($b) \x7d
[Attr(param)] class Function : Using \x7b param([int]$c) \x7d
$x = \x7b param($d) \x7d".toList).toOption.any fun s => sts.length = 4 ∧
      nests [] s.tokens = true ∧ ∀ p ∈ bareTokens [] s.tokens, p.kind ≠ .paramWord) = true := by
    decide +kernel
  generalize "enum Class \x7b param = 1 \x7d
function using:enum($a) \x7b param($b) \x7d
[Attr(param)] class Function : Using \x7b param([int]$c) \x7d
$x = \x7b param($d) \x7d".toList = source at hrun ⊢
  obtain ⟨sts, hsts, hrun⟩ := toOption_any.mp hrun
  obtain ⟨s, hs, hrun⟩ := toOption_any.mp hrun
  obtain ⟨hlength, hnests, hbare⟩ := of_decide_eq_true hrun
  refine ⟨source, s, sts, rfl, hsts, hlength, hs, hnests, (classify_routing hsts hs hnests).2 ?_⟩
  rintro ⟨p, hp, hkind, -⟩
  exact hbare p hp hkind

/-- Whether a source that is read as statements is not taken for an entry point as well. -/
def Unambiguous (source : Text) : Prop :=
  ∀ sts s, Script.classify none source = .ok sts → scan source = .ok s →
    paramIndex? s.tokens = none

theorem not_unambiguous {source : Text}
    (h : ((Script.classify none source).toOption.any fun _ => (scan source).toOption.any fun s =>
      (paramIndex? s.tokens).isSome) = true) : ¬ Unambiguous source := by
  intro hnone
  obtain ⟨sts, hsts, h⟩ := toOption_any.mp h
  obtain ⟨s, hs, h⟩ := toOption_any.mp h
  rw [hnone sts s hsts hs] at h
  cases h

/-- The word names an enumeration, a class, its base, a function, its scope or a module, is an
    expression, or stands in a body whose brackets do not nest. -/
theorem classify_routing_param :
    ¬ Unambiguous "enum Param \x7b\n\x7d".toList ∧ ¬ Unambiguous "class Param \x7b\x7d".toList ∧
    ¬ Unambiguous "class C : Param \x7b\x7d".toList ∧
    ¬ Unambiguous "function Param \x7b\x7d".toList ∧
    ¬ Unambiguous "function param:f \x7b\x7d".toList ∧
    ¬ Unambiguous "using module Param".toList ∧ ¬ Unambiguous "$x = param".toList ∧
    ¬ Unambiguous "function f \x7b ( \x7d param \x7d".toList := by
  refine ⟨?_, ?_, ?_, ?_, ?_, ?_, ?_, ?_⟩ <;> exact not_unambiguous (by decide +kernel)

end ScriptModule
