/-
  ScriptModule/Proofs/Grammar.lean
  ================================
  **The grammar of scripts.**  What each parser accepts, as a relation between the tokens
  that are left, what is read, and the tokens behind it.  A parser succeeds exactly where
  its relation holds, so a property of all scripts is shown by induction on the relations
  and a script is classified by a derivation.
-/
import ScriptModule.Outcome
import ScriptModule.Proofs.ParserSteps

namespace ScriptModule

namespace Grammar

open Script

/-! ### Names and groups -/

inductive Name : List Token → Text → List Token → Prop
  | intro {t : Token} {ts : List Token} : t.kind.isName = true → Name (t :: ts) t.text ts

theorem name_iff {sc : Script} {problem : Option Text → Problem} {ts rest : List Token}
    {n : Text} : sc.name problem ts = .ok (n, rest) ↔ Name ts n rest := by
  constructor
  · intro h
    rcases ts with _ | ⟨t, ts⟩
    · cases h
    · simp only [Script.name] at h
      split at h
      · next hname =>
        cases h
        exact .intro hname
      · cases h
  · rintro ⟨hname⟩
    simp [Script.name, hname]

theorem group_iff {sc : Script} {opener : Token} {ts : List Token} {r : Token × List Token} :
    sc.group opener ts = .ok r ↔ groupEnd? 0 ts = some r := by
  unfold Script.group
  cases groupEnd? 0 ts <;> simp

theorem Name.suffix {ts rest : List Token} {n : Text} (h : Name ts n rest) : rest <:+ ts := by
  rcases h with ⟨-⟩
  exact List.suffix_cons _ _

/-- A body in braces, up to its closing brace. -/
inductive Body : List Token → Token → List Token → Prop
  | intro {ts inner rest : List Token} {brace close : Token} :
      skipBlank ts = brace :: inner → brace.kind = .leftBrace →
      groupEnd? 0 inner = some (close, rest) → Body ts close rest

theorem body_iff {sc : Script} {problem : Option Text → Problem} {ts rest : List Token}
    {close : Token} : sc.body problem ts = .ok (close, rest) ↔ Body ts close rest := by
  constructor
  · intro h
    unfold Script.body at h
    split at h
    · next brace inner hblank =>
      split at h
      · next hbrace => exact .intro hblank hbrace (group_iff.mp h)
      · cases h
    · cases h
  · rintro ⟨hblank, hbrace, hend⟩
    simp only [Script.body, hblank, hbrace, if_true]
    exact group_iff.mpr hend

theorem skipBlank_suffix (ts : List Token) : skipBlank ts <:+ ts := List.dropWhile_suffix _

theorem Body.suffix {ts rest : List Token} {close : Token} (h : Body ts close rest) :
    close :: rest <:+ ts := by
  obtain ⟨hblank, -, hend⟩ := h
  have hbody := skipBlank_suffix ts
  rw [hblank] at hbody
  exact (groupEnd?_suffix hend).trans ((List.suffix_cons _ _).trans hbody)

/-! ### Attributes -/

inductive Attributes (sc : Script) : List Token → List Text → List Token → Prop
  | nil {ts : List Token} : nextIs .leftBracket ts = false → Attributes sc ts [] ts
  | cons {t close : Token} {ts mid rest : List Token} {as : List Text} :
      t.kind = .leftBracket → groupEnd? 0 ts = some (close, mid) →
      Attributes sc (afterAttribute mid) as rest →
      Attributes sc (t :: ts) (sc.slice t close :: as) rest

theorem attributes_iff {sc : Script} {ts rest : List Token} {as : List Text} :
    sc.attributes ts = .ok (as, rest) ↔ Attributes sc ts as rest := by
  constructor
  · intro h
    fun_induction attributes sc ts generalizing as rest with
    | case1 =>
      cases h
      exact .nil rfl
    | case2 t r ht e hgroup => cases h
    | case3 t r ht close mid hgroup e hrest ih => cases h
    | case4 t r ht close mid hgroup as' rest' hrest ih =>
      cases h
      exact .cons ht (group_iff.mp hgroup) (ih hrest)
    | case5 t r ht =>
      cases h
      exact .nil (by simpa [nextIs] using ht)
  · intro h
    induction h with
    | @nil ts hnext =>
      cases ts with
      | nil => rw [attributes]
      | cons t ts =>
        have ht : t.kind ≠ .leftBracket := by simpa [nextIs] using hnext
        rw [attributes, if_neg ht]
    | cons ht hend _ ih =>
      rw [attributes_bracket sc ht, group_iff.mpr hend]
      dsimp only [Except.bind]
      rw [ih]
      rfl

theorem afterAttribute_suffix (ts : List Token) : afterAttribute ts <:+ ts := by
  unfold afterAttribute
  split
  · exact List.suffix_refl ts
  · exact skipBlank_suffix ts

theorem Attributes.suffix {sc : Script} {ts rest : List Token} {as : List Text}
    (h : Attributes sc ts as rest) : rest <:+ ts := by
  induction h with
  | nil => exact List.suffix_refl _
  | cons _ hend _ ih =>
    have hmid := (List.suffix_cons _ _).trans (groupEnd?_suffix hend)
    exact (ih.trans (afterAttribute_suffix _)).trans (hmid.trans (List.suffix_cons _ _))

/-! ### Enumerations -/

inductive Underlying : List Token → Option Text → List Token → Prop
  | none {ts : List Token} : nextIs .colon ts = false → Underlying ts none ts
  | some {t : Token} {ts rest : List Token} {n : Text} :
      t.kind = .colon → Name ts n rest → Underlying (t :: ts) (some n) rest

theorem underlyingType_iff {sc : Script} {ts rest : List Token} {u : Option Text} :
    sc.underlyingType ts = .ok (u, rest) ↔ Underlying ts u rest := by
  constructor
  · intro h
    unfold underlyingType at h
    split at h
    · next t r =>
      split at h
      · next hcolon =>
        split at h
        · cases h
        · next n r' hname =>
          cases h
          exact .some hcolon (name_iff.mp hname)
      · next hcolon =>
        cases h
        exact .none (by simpa [nextIs] using hcolon)
    · cases h
      exact .none rfl
  · intro h
    rcases h with hnext | ⟨hcolon, hname⟩
    · cases ts with
      | nil => rfl
      | cons t ts =>
        have ht : t.kind ≠ .colon := by simpa [nextIs] using hnext
        rw [underlyingType, if_neg ht]
    · simp only [underlyingType, if_pos hcolon, name_iff.mpr hname]

theorem Underlying.suffix {ts rest : List Token} {u : Option Text} (h : Underlying ts u rest) :
    rest <:+ ts := by
  rcases h with - | ⟨-, hname⟩
  · exact List.suffix_refl _
  · exact hname.suffix.trans (List.suffix_cons _ _)

/-- The value of a member: nothing, or all that stands behind an equals sign. -/
inductive Value (sc : Script) : List Token → Option Text → List Token → Prop
  | none {ts : List Token} : nextIs .equals ts = false → Value sc ts none ts
  | some {t first : Token} {ts more : List Token} :
      t.kind = .equals → ts.takeWhile isValuePart = first :: more →
      Value sc (t :: ts) (some (sc.slice first (more.getLast?.getD first)))
        (ts.dropWhile isValuePart)

theorem memberValue_iff {sc : Script} {member : Text} {ts rest : List Token} {v : Option Text} :
    sc.memberValue member ts = .ok (v, rest) ↔ Value sc ts v rest := by
  constructor
  · intro h
    unfold memberValue at h
    split at h
    · next t r =>
      split at h
      · next hequals =>
        split at h
        · cases h
        · next first more hvalue =>
          cases h
          exact .some hequals hvalue
      · next hequals =>
        cases h
        exact .none (by simpa [nextIs] using hequals)
    · cases h
      exact .none rfl
  · intro h
    rcases h with hnext | ⟨hequals, hvalue⟩
    · cases ts with
      | nil => rfl
      | cons t ts =>
        have ht : t.kind ≠ .equals := by simpa [nextIs] using hnext
        rw [memberValue, if_neg ht]
    · simp only [memberValue, if_pos hequals, hvalue]

theorem Value.suffix {sc : Script} {ts rest : List Token} {v : Option Text}
    (h : Value sc ts v rest) : rest <:+ ts := by
  rcases h with - | ⟨-, -⟩
  · exact List.suffix_refl _
  · exact (List.dropWhile_suffix _).trans (List.suffix_cons _ _)

/-- The members of an enumeration, up to its closing brace. -/
inductive Members (sc : Script) : List Token → List EnumMember → Token → List Token → Prop
  | nil {ts rest : List Token} {close : Token} :
      ts.dropWhile isMemberGap = close :: rest → close.kind = .rightBrace →
      Members sc ts [] close rest
  | group {ts inner mid rest : List Token} {t u close : Token} {ms : List EnumMember} :
      ts.dropWhile isMemberGap = t :: inner → t.kind = .leftBracket →
      groupEnd? 0 inner = some (u, mid) → Members sc mid ms close rest →
      Members sc ts ms close rest
  | cons {ts more mid rest : List Token} {t close : Token} {v : Option Text}
      {ms : List EnumMember} :
      ts.dropWhile isMemberGap = t :: more → t.kind.isName = true → Value sc more v mid →
      Members sc mid ms close rest → Members sc ts (⟨t.text, v⟩ :: ms) close rest

theorem members_iff {sc : Script} {enum : Text} {ts rest : List Token} {ms : List EnumMember}
    {close : Token} : sc.members enum ts = .ok (ms, close, rest) ↔ Members sc ts ms close rest := by
  constructor
  · intro h
    fun_induction members sc enum ts generalizing ms close rest with
    | case1 ts hnone => cases h
    | case2 ts t r hgap hclose =>
      cases h
      exact .nil hgap hclose
    | case3 ts t r hgap hclose hopen e hgroup => cases h
    | case4 ts t r hgap hclose hopen u mid hgroup ih =>
      exact .group hgap hopen (group_iff.mp hgroup) (ih h)
    | case5 ts t r hgap hclose hopen hname e hvalue => cases h
    | case6 ts t r hgap hclose hopen hname v mid hvalue e hrest ih => cases h
    | case7 ts t r hgap hclose hopen hname v mid hvalue ms' close' rest' hrest ih =>
      cases h
      exact .cons hgap hname (memberValue_iff.mp hvalue) (ih hrest)
    | case8 ts t r hgap hclose hopen hname => cases h
  · intro h
    induction h with
    | nil hgap hclose =>
      rw [members_eq, hgap]
      exact if_pos hclose
    | group hgap hopen hend _ ih =>
      rw [members_eq, hgap]
      dsimp only
      rw [if_neg (by simp [hopen]), if_pos hopen, group_iff.mpr hend]
      exact ih
    | @cons ts more mid rest t close v ms hgap hname hvalue _ ih =>
      have hkind : t.kind ≠ .rightBrace ∧ t.kind ≠ .leftBracket := by
        constructor <;>
        · intro heq
          rw [heq] at hname
          cases hname
      rw [members_eq, hgap]
      dsimp only
      rw [if_neg hkind.1, if_neg hkind.2, if_pos hname, memberValue_iff.mpr hvalue]
      dsimp only [Except.bind]
      rw [ih]
      rfl

theorem cons_suffix_of_dropWhile {p : Token → Bool} {ts rest : List Token} {t : Token}
    (h : ts.dropWhile p = t :: rest) : t :: rest <:+ ts := by
  rw [← h]
  exact List.dropWhile_suffix p

theorem Members.suffix {sc : Script} {ts rest : List Token} {ms : List EnumMember}
    {close : Token} (h : Members sc ts ms close rest) : close :: rest <:+ ts := by
  induction h with
  | nil hgap => exact cons_suffix_of_dropWhile hgap
  | group hgap _ hend _ ih =>
    have hmid := (List.suffix_cons _ _).trans (groupEnd?_suffix hend)
    have hinner := (List.suffix_cons _ _).trans (cons_suffix_of_dropWhile hgap)
    exact ih.trans (hmid.trans hinner)
  | cons hgap _ hvalue _ ih =>
    have hmore := (List.suffix_cons _ _).trans (cons_suffix_of_dropWhile hgap)
    exact ih.trans (hvalue.suffix.trans hmore)

/-! ### Classes and functions -/

inductive BaseTypes : List Token → List Text → List Token → Prop
  | none {ts : List Token} : nextIs .colon ts = false → BaseTypes ts [] ts
  | some {t : Token} {ts rest : List Token} {bs : List Text} :
      t.kind = .colon → baseTypesFrom 0 [] ts = (bs, rest) →
      (bs.isEmpty || bs.any (·.isEmpty)) = false → BaseTypes (t :: ts) bs rest

theorem baseTypes_iff {sc : Script} {cls : Text} {ts rest : List Token} {bs : List Text} :
    sc.baseTypes cls ts = .ok (bs, rest) ↔ BaseTypes ts bs rest := by
  constructor
  · intro h
    unfold baseTypes at h
    split at h
    · next t r =>
      split at h
      · next hcolon =>
        simp only at h
        split at h
        · cases h
        · next hbases =>
          have heq := Except.ok.inj h
          rw [heq] at hbases
          exact .some hcolon heq (Bool.eq_false_iff.mpr hbases)
      · next hcolon =>
        cases h
        exact .none (by simpa [nextIs] using hcolon)
    · cases h
      exact .none rfl
  · intro h
    rcases h with hnext | ⟨hcolon, heq, hbases⟩
    · cases ts with
      | nil => rfl
      | cons t ts =>
        have ht : t.kind ≠ .colon := by simpa [nextIs] using hnext
        rw [baseTypes, if_neg ht]
    · simp only [baseTypes, if_pos hcolon, heq, hbases]
      rfl

theorem baseTypesFrom_suffix (depth : Int) (base : Text) (ts : List Token) :
    (baseTypesFrom depth base ts).2 <:+ ts := by
  induction ts generalizing depth base with
  | nil => exact List.suffix_refl _
  | cons t ts ih =>
    rw [baseTypesFrom]
    split
    · exact List.suffix_refl _
    · split
      · exact (ih 0 []).trans (List.suffix_cons _ _)
      · exact (ih _ _).trans (List.suffix_cons _ _)

theorem BaseTypes.suffix {ts rest : List Token} {bs : List Text} (h : BaseTypes ts bs rest) :
    rest <:+ ts := by
  cases h with
  | none => exact List.suffix_refl _
  | @some t ts _ _ _ heq _ =>
    have hrest := baseTypesFrom_suffix 0 [] ts
    rw [heq] at hrest
    exact hrest.trans (List.suffix_cons t ts)

inductive FunctionName : List Token → Text → List Token → Prop
  | plain {ts rest : List Token} {n : Text} :
      Name ts n rest → nextIs .colon rest = false → FunctionName ts n rest
  | scoped {ts mid rest : List Token} {t : Token} {scope n : Text} :
      Name ts scope (t :: mid) → t.kind = .colon → Name mid n rest → FunctionName ts n rest

theorem functionName_iff {sc : Script} {ts rest : List Token} {n : Text} :
    sc.functionName ts = .ok (n, rest) ↔ FunctionName ts n rest := by
  constructor
  · intro h
    unfold functionName at h
    split at h
    · cases h
    · next n' hname =>
      cases h
      exact .plain (name_iff.mp hname) rfl
    · next scope t mid hname =>
      split at h
      · next hcolon => exact .scoped (name_iff.mp hname) hcolon (name_iff.mp h)
      · next hcolon =>
        cases h
        exact .plain (name_iff.mp hname) (by simpa [nextIs] using hcolon)
  · intro h
    rcases h with ⟨hname, hnext⟩ | ⟨hscope, hcolon, hname⟩
    · rw [functionName, name_iff.mpr hname]
      cases rest with
      | nil => rfl
      | cons t rest =>
        have ht : t.kind ≠ .colon := by simpa [nextIs] using hnext
        simp only [if_neg ht]
    · simp only [functionName, name_iff.mpr hscope, if_pos hcolon]
      exact name_iff.mpr hname

theorem FunctionName.suffix {ts rest : List Token} {n : Text} (h : FunctionName ts n rest) :
    rest <:+ ts := by
  rcases h with ⟨hname, -⟩ | ⟨hscope, -, hname⟩
  · exact hname.suffix
  · exact hname.suffix.trans ((List.suffix_cons _ _).trans hscope.suffix)

/-- A parameter list in front of a body, if there is one. -/
inductive Parameters : List Token → List Token → Prop
  | none {ts : List Token} : nextIs .leftParen ts = false → Parameters ts ts
  | some {t close : Token} {ts rest : List Token} :
      t.kind = .leftParen → groupEnd? 0 ts = some (close, rest) → Parameters (t :: ts) rest

theorem skipParameters_iff {sc : Script} {ts rest : List Token} :
    sc.skipParameters ts = .ok rest ↔ Parameters ts rest := by
  constructor
  · intro h
    unfold skipParameters at h
    split at h
    · next t r =>
      split at h
      · next hparen =>
        obtain ⟨⟨close, rest'⟩, hgroup, rfl⟩ := map_eq_ok h
        exact .some hparen (group_iff.mp hgroup)
      · next hparen =>
        cases h
        exact .none (by simpa [nextIs] using hparen)
    · cases h
      exact .none rfl
  · intro h
    rcases h with hnext | ⟨hparen, hend⟩
    · cases ts with
      | nil => rfl
      | cons t ts =>
        have ht : t.kind ≠ .leftParen := by simpa [nextIs] using hnext
        rw [skipParameters, if_neg ht]
    · rw [skipParameters, if_pos hparen, group_iff.mpr hend]
      rfl

theorem Parameters.suffix {ts rest : List Token} (h : Parameters ts rest) : rest <:+ ts := by
  rcases h with - | ⟨-, hend⟩
  · exact List.suffix_refl _
  · have hrest := (List.suffix_cons _ _).trans (groupEnd?_suffix hend)
    exact hrest.trans (List.suffix_cons _ _)

/-! ### Expressions -/

/-- Whether an expression ends in front of a token. -/
def endsExpression (before : Option TokenKind) (t : Token) : Bool :=
  t.kind == .semicolon || (t.kind == .newline && !continuesLine before)

/-- An expression: its tokens, of its groups the first and last only. -/
inductive Expression : Option TokenKind → List Token → List Token → List Token → Prop
  | atEnd {before : Option TokenKind} : Expression before [] [] []
  | stop {before : Option TokenKind} {t : Token} {ts : List Token} :
      endsExpression before t = true → Expression before (t :: ts) [] (t :: ts)
  | group {before : Option TokenKind} {t close : Token} {ts mid es rest : List Token} :
      endsExpression before t = false → t.kind.isOpener = true →
      groupEnd? 0 ts = some (close, mid) → Expression (some close.kind) mid es rest →
      Expression before (t :: ts) (t :: close :: es) rest
  | token {before : Option TokenKind} {t : Token} {ts es rest : List Token} :
      endsExpression before t = false → t.kind.isOpener = false →
      Expression (lastKind before t) ts es rest → Expression before (t :: ts) (t :: es) rest

theorem expression_iff {sc : Script} {before : Option TokenKind} {ts es rest : List Token} :
    sc.expression before ts = .ok (es, rest) ↔ Expression before ts es rest := by
  constructor
  · intro h
    fun_induction expression sc before ts generalizing es rest with
    | case1 before =>
      cases h
      exact .atEnd
    | case2 before t r hends =>
      cases h
      exact .stop hends
    | case3 before t r hends hopen e hgroup => cases h
    | case4 before t r hends hopen close mid hgroup e hrest ih => cases h
    | case5 before t r hends hopen close mid hgroup es' rest' hrest ih =>
      cases h
      exact .group (Bool.eq_false_iff.mpr hends) hopen (group_iff.mp hgroup) (ih hrest)
    | case6 before t r hends hopen e hrest ih => cases h
    | case7 before t r hends hopen es' rest' hrest ih =>
      cases h
      exact .token (Bool.eq_false_iff.mpr hends) (Bool.eq_false_iff.mpr hopen) (ih hrest)
  · intro h
    induction h with
    | atEnd => rw [expression]
    | stop hends => exact (expression_cons _ _ _ _).trans (if_pos hends)
    | @group before t close ts mid es rest hends hopen hend _ ih =>
      rw [endsExpression] at hends
      rw [expression_cons, hends, if_neg Bool.false_ne_true, if_pos hopen, group_iff.mpr hend]
      dsimp only [Except.bind]
      rw [ih]
      rfl
    | @token before t ts es rest hends hopen _ ih =>
      rw [endsExpression] at hends
      rw [expression_cons, hends, if_neg Bool.false_ne_true, hopen, if_neg Bool.false_ne_true, ih]
      rfl

/-! ### Declarations -/

/-- A declaration: what it says, its last token, and the tokens behind it. -/
inductive Declaration (sc : Script) : List Token → Content → Token → List Token → Prop
  | enumeration {ts r1 r2 r3 inner rest : List Token} {t brace close : Token}
      {attrs : List Text} {n : Text} {u : Option Text} {ms : List EnumMember} :
      Attributes sc ts attrs (t :: r1) → t.kind = .enumWord → Name r1 n r2 →
      Underlying r2 u r3 → skipBlank r3 = brace :: inner → brace.kind = .leftBrace →
      Members sc inner ms close rest →
      Declaration sc ts (.enumeration ⟨n, ms, attrs, u⟩) close rest
  | classType {ts r1 r2 r3 rest : List Token} {t close : Token} {attrs : List Text} {n : Text}
      {bs : List Text} :
      Attributes sc ts attrs (t :: r1) → t.kind = .classWord → Name r1 n r2 →
      BaseTypes r2 bs r3 → Body r3 close rest → Declaration sc ts (.classType ⟨n, bs⟩) close rest
  | function {ts r1 r2 r3 rest : List Token} {t close : Token} {n : Text} :
      Attributes sc ts [] (t :: r1) → t.kind = .functionWord → FunctionName r1 n r2 →
      Parameters r2 r3 → Body r3 close rest → Declaration sc ts (.function n) close rest
  | assignment {ts r es rest more : List Token} {t e start : Token} {attrs : List Text} :
      Attributes sc ts attrs (t :: e :: r) → t.kind = .variable → e.kind = .equals →
      Expression none (skipBlank r) es rest → es.filter isSignificant = start :: more →
      Declaration sc ts (.assignment {
        name := variableName t.text
        target := t.text
        expression := sc.slice start (more.getLast?.getD start)
        typeConstraint := if attrs.isEmpty then none else some attrs.flatten })
        (more.getLast?.getD start) rest

section

variable {sc : Script} {first : Token} {ts : List Token} {p : Parsed Statement}

theorem enumDef_eq_ok {attrs : List Text} (h : sc.enumDef first attrs ts = .ok p) :
    ∃ n r2 u r3 brace inner ms close rest, Name ts n r2 ∧ Underlying r2 u r3 ∧
      skipBlank r3 = brace :: inner ∧ brace.kind = .leftBrace ∧ Members sc inner ms close rest ∧
      p = sc.parsed (.enumeration ⟨n, ms, attrs, u⟩) first close rest := by
  unfold enumDef at h
  split at h
  · cases h
  · next n r2 hname =>
    split at h
    · cases h
    · next u r3 hunder =>
      split at h
      · cases h
      · next brace inner hblank =>
        split at h
        · next hbrace =>
          split at h
          · cases h
          · next ms close rest hmembers =>
            cases h
            exact ⟨n, r2, u, r3, brace, inner, ms, close, rest, name_iff.mp hname,
              underlyingType_iff.mp hunder, hblank, hbrace, members_iff.mp hmembers, rfl⟩
        · cases h

theorem classDef_eq_ok (h : sc.classDef first ts = .ok p) :
    ∃ n r2 bs r3 close rest, Name ts n r2 ∧ BaseTypes r2 bs r3 ∧ Body r3 close rest ∧
      p = sc.parsed (.classType ⟨n, bs⟩) first close rest := by
  unfold classDef at h
  split at h
  · cases h
  · next n r2 hname =>
    split at h
    · cases h
    · next bs r3 hbases =>
      split at h
      · cases h
      · next close rest hbody =>
        cases h
        exact ⟨n, r2, bs, r3, close, rest, name_iff.mp hname, baseTypes_iff.mp hbases,
          body_iff.mp hbody, rfl⟩

theorem functionDef_eq_ok (h : sc.functionDef first ts = .ok p) :
    ∃ n r2 r3 close rest, FunctionName ts n r2 ∧ Parameters r2 r3 ∧ Body r3 close rest ∧
      p = sc.parsed (.function n) first close rest := by
  unfold functionDef at h
  split at h
  · cases h
  · next n r2 hname =>
    split at h
    · cases h
    · next r3 hparameters =>
      split at h
      · cases h
      · next close rest hbody =>
        cases h
        exact ⟨n, r2, r3, close, rest, functionName_iff.mp hname,
          skipParameters_iff.mp hparameters, body_iff.mp hbody, rfl⟩

theorem assignment_eq_ok {target : Token} {attrs : List Text}
    (h : sc.assignment first target attrs ts = .ok p) :
    ∃ e r es rest start more, ts = e :: r ∧ e.kind = .equals ∧
      Expression none (skipBlank r) es rest ∧ es.filter isSignificant = start :: more ∧
      p = sc.parsed (.assignment {
        name := variableName target.text
        target := target.text
        expression := sc.slice start (more.getLast?.getD start)
        typeConstraint := if attrs.isEmpty then none else some attrs.flatten }) first
        (more.getLast?.getD start) rest := by
  unfold assignment at h
  split at h
  · cases h
  · next e r =>
    split at h
    · next hequals =>
      split at h
      · cases h
      · next es rest hexpression =>
        split at h
        · cases h
        · next start more hsignificant =>
          cases h
          exact ⟨e, r, es, rest, start, more, rfl, hequals, expression_iff.mp hexpression,
            hsignificant, rfl⟩
    · cases h

theorem declaration_iff : sc.declaration first ts = .ok p ↔
    ∃ content, Declaration sc (first :: ts) content p.last p.rest ∧
      p = sc.parsed content first p.last p.rest := by
  constructor
  · intro h
    unfold declaration at h
    split at h
    · cases h
    · cases h
    · next attrs t r hattrs =>
      have hattributes := attributes_iff.mp hattrs
      split at h
      · next hkind =>
        obtain ⟨n, r2, u, r3, brace, inner, ms, close, rest, hname, hunder, hblank, hbrace,
          hmembers, rfl⟩ := enumDef_eq_ok h
        exact ⟨_, .enumeration hattributes hkind hname hunder hblank hbrace hmembers, rfl⟩
      · split at h
        · next hkind =>
          obtain ⟨n, r2, bs, r3, close, rest, hname, hbases, hbody, rfl⟩ := classDef_eq_ok h
          exact ⟨_, .classType hattributes hkind hname hbases hbody, rfl⟩
        · split at h
          · next hkind =>
            obtain ⟨e, r', es, rest, start, more, rfl, hequals, hexpression, hsignificant, rfl⟩ :=
              assignment_eq_ok h
            exact ⟨_, .assignment hattributes hkind hequals hexpression hsignificant, rfl⟩
          · split at h
            · next hkind =>
              simp only [Bool.and_eq_true, decide_eq_true_eq, List.isEmpty_iff] at hkind
              obtain ⟨hkind, rfl⟩ := hkind
              obtain ⟨n, r2, r3, close, rest, hname, hparameters, hbody, rfl⟩ :=
                functionDef_eq_ok h
              exact ⟨_, .function hattributes hkind hname hparameters hbody, rfl⟩
            · cases h
  · rintro ⟨content, hdeclaration, hp⟩
    rw [hp]
    generalize p.last = close at hdeclaration ⊢
    generalize p.rest = rest at hdeclaration ⊢
    cases hdeclaration with
    | enumeration hattributes hkind hname hunder hblank hbrace hmembers =>
      simp only [declaration, attributes_iff.mpr hattributes, if_pos hkind, enumDef,
        name_iff.mpr hname, underlyingType_iff.mpr hunder, hblank, if_pos hbrace,
        members_iff.mpr hmembers]
    | classType hattributes hkind hname hbases hbody =>
      simp only [declaration, attributes_iff.mpr hattributes, hkind, reduceCtorEq, if_false,
        if_true, classDef, name_iff.mpr hname, baseTypes_iff.mpr hbases, body_iff.mpr hbody]
    | function hattributes hkind hname hparameters hbody =>
      simp only [declaration, attributes_iff.mpr hattributes, hkind, reduceCtorEq, if_false,
        decide_true, List.isEmpty_nil, Bool.and_self, if_true, functionDef,
        functionName_iff.mpr hname, skipParameters_iff.mpr hparameters, body_iff.mpr hbody]
    | assignment hattributes hkind hequals hexpression hsignificant =>
      simp only [declaration, attributes_iff.mpr hattributes, hkind, reduceCtorEq, if_false,
        if_true, assignment, if_pos hequals, expression_iff.mpr hexpression, hsignificant]

end

/-! ### Imports -/

/-- An import directive behind its keyword: what it imports and its last token. -/
inductive Importing (sc : Script) : List Token → Import → Token → List Token → Prop
  | intro {k first : Token} {r more : List Token} :
      endsDirective k.kind = false → r.takeWhile isNamePart = first :: more →
      Importing sc (k :: r)
        ⟨importKind k.text, sc.importName first (more.getLast?.getD first) more.isEmpty⟩
        (more.getLast?.getD first) (r.dropWhile isNamePart)

theorem usingDirective_iff {sc : Script} {keyword : Token} {ts : List Token}
    {p : Parsed Statement} : sc.usingDirective keyword ts = .ok p ↔
      ∃ i, Importing sc ts i p.last p.rest ∧
        p = sc.parsed (.importing i) keyword p.last p.rest := by
  constructor
  · intro h
    unfold usingDirective at h
    split at h
    · cases h
    · next k r =>
      split at h
      · cases h
      · next hends =>
        split at h
        · cases h
        · next first more hname =>
          cases h
          exact ⟨_, .intro (Bool.eq_false_iff.mpr hends) hname, rfl⟩
  · rintro ⟨i, himport, hp⟩
    rw [hp]
    generalize p.last = last at himport ⊢
    generalize p.rest = rest at himport ⊢
    obtain ⟨hends, hname⟩ := himport
    simp only [usingDirective, hends, Bool.false_eq_true, if_false, hname]
    rfl

/-- An import ends with a part of its name, and the tokens behind it are left. -/
theorem Importing.split {sc : Script} {ts rest : List Token} {i : Import} {last : Token}
    (h : Importing sc ts i last rest) :
    ∃ front, ts = front ++ last :: rest ∧ isNamePart last = true := by
  cases h with
  | @intro k first r more _ hname =>
    obtain ⟨front, hfront⟩ := List.getLast?_eq_some_iff.mp (@List.getLast?_cons _ more first)
    rw [← hname] at hfront
    refine ⟨k :: front, ?_, ?_⟩
    · have hsplit := List.takeWhile_append_dropWhile (p := isNamePart) (l := r)
      rw [hfront, List.append_assoc] at hsplit
      simpa using congrArg (k :: ·) hsplit.symm
    · exact List.all_eq_true.mp List.all_takeWhile _ (hfront ▸ List.mem_concat_self)

theorem Importing.extent {sc : Script} {ts rest : List Token} {i : Import} {last : Token}
    (h : Importing sc ts i last rest) : last :: rest <:+ ts := by
  obtain ⟨front, hsplit, -⟩ := h.split
  exact ⟨front, hsplit.symm⟩

/-! ### Statements -/

/-- A statement with its content, from its first to its last token. -/
def stated (sc : Script) (content : Content) (first last : Token) : Statement where
  content := content
  filename := sc.filename
  span := some (span first last)
  text := sc.slice first last

inductive Statements (sc : Script) : List Token → List Statement → Prop
  | nil : Statements sc [] []
  | separator {t : Token} {ts : List Token} {sts : List Statement} :
      isSeparator t = true → Statements sc ts sts → Statements sc (t :: ts) sts
  | requirement {t : Token} {ts : List Token} {st : Statement} {sts : List Statement} :
      t.isRequirement = true → sc.requirement t = .ok st → Statements sc ts sts →
      Statements sc (t :: ts) (st :: sts)
  | importing {t last : Token} {ts rest : List Token} {i : Import} {sts : List Statement} :
      t.kind = .usingWord → Importing sc ts i last rest → Statements sc rest sts →
      Statements sc (t :: ts) (stated sc (.importing i) t last :: sts)
  | declaration {t last : Token} {ts rest : List Token} {content : Content}
      {sts : List Statement} :
      Declaration sc (t :: ts) content last rest → Statements sc rest sts →
      Statements sc (t :: ts) (stated sc content t last :: sts)

theorem comment_of_isRequirement {t : Token} (h : t.isRequirement = true) :
    t.kind = .comment := by
  simp only [Token.isRequirement, Bool.and_eq_true, beq_iff_eq] at h
  exact h.1.1

/-- A declaration starts with an attribute, a keyword or a variable. -/
theorem Declaration.head_kind {sc : Script} {t last : Token} {ts rest : List Token}
    {content : Content} (h : Declaration sc (t :: ts) content last rest) :
    t.kind = .leftBracket ∨ t.kind = .enumWord ∨ t.kind = .classWord ∨
      t.kind = .functionWord ∨ t.kind = .variable := by
  have hhead : ∀ {as u us}, Attributes sc (t :: ts) as (u :: us) →
      t.kind = .leftBracket ∨ t = u := by
    intro as u us hattributes
    cases hattributes with
    | nil => exact .inr rfl
    | cons hkind => exact .inl hkind
  rcases h with ⟨hattributes, hkind⟩ | ⟨hattributes, hkind⟩ | ⟨hattributes, hkind⟩ |
    ⟨hattributes, hkind⟩
  all_goals
    rcases hhead hattributes with hbracket | rfl
    · exact .inl hbracket
    · simp [hkind]

end Grammar

/-! ### One statement -/

namespace Script

open Grammar

theorem statementsFrom_requirement {sc : Script} {t : Token} {st : Statement}
    (hrequirement : t.isRequirement = true) (hparse : sc.requirement t = .ok st)
    (ts : List Token) :
    sc.statementsFrom (t :: ts) = (sc.statementsFrom ts).map (st :: ·) := by
  have hcomment := comment_of_isRequirement hrequirement
  rw [statementsFrom_cons, if_neg (by simp [isSeparator, Token.isRemark, hcomment,
    hrequirement]), if_pos hcomment, hparse]
  rfl

theorem statementsFrom_importing {sc : Script} {t last : Token} {ts rest : List Token}
    {i : Import} (husing : t.kind = .usingWord) (h : Importing sc ts i last rest) :
    sc.statementsFrom (t :: ts) =
      (sc.statementsFrom rest).map (stated sc (.importing i) t last :: ·) := by
  have hparse : sc.usingDirective t ts = .ok (sc.parsed (.importing i) t last rest) :=
    usingDirective_iff.mpr ⟨i, h, rfl⟩
  rw [statementsFrom_cons, if_neg (by simp [isSeparator, Token.isRemark, husing]),
    if_neg (by simp [husing]), if_pos husing, hparse]
  rfl

theorem statementsFrom_declaration {sc : Script} {t last : Token} {ts rest : List Token}
    {content : Content} (h : Declaration sc (t :: ts) content last rest) :
    sc.statementsFrom (t :: ts) =
      (sc.statementsFrom rest).map (stated sc content t last :: ·) := by
  have hparse : sc.declaration t ts = .ok (sc.parsed content t last rest) :=
    declaration_iff.mpr ⟨content, h, rfl⟩
  have hkind := h.head_kind
  rw [statementsFrom_cons,
    if_neg (by rcases hkind with h | h | h | h | h <;> simp [h, isSeparator,
      Token.isRemark]),
    if_neg (by rcases hkind with h | h | h | h | h <;> simp [h]),
    if_neg (by rcases hkind with h | h | h | h | h <;> simp [h]), hparse]
  rfl

end Script

namespace Grammar

open Script

theorem isRequirement_of_not_separator {t : Token} (h : ¬ isSeparator t = true)
    (hkind : t.kind = .comment) : t.isRequirement = true := by
  simpa [isSeparator, Token.isRemark, hkind] using h

theorem statementsFrom_iff {sc : Script} {ts : List Token} {sts : List Statement} :
    sc.statementsFrom ts = .ok sts ↔ Statements sc ts sts := by
  constructor
  · intro h
    fun_induction statementsFrom sc ts generalizing sts with
    | case1 =>
      cases h
      exact .nil
    | case2 t r hseparator ih => exact .separator hseparator (ih h)
    | case3 t r hseparator hcomment e hparse => cases h
    | case4 t r hseparator hcomment st hparse ih =>
      obtain ⟨sts', hrest, rfl⟩ := map_eq_ok h
      exact .requirement (isRequirement_of_not_separator hseparator hcomment) hparse (ih hrest)
    | case5 t r hseparator hcomment husing e hparse => cases h
    | case6 t r hseparator hcomment husing p hparse ih =>
      obtain ⟨sts', hrest, rfl⟩ := map_eq_ok h
      obtain ⟨i, himport, hp⟩ := usingDirective_iff.mp hparse
      have hvalue : p.value = stated sc (.importing i) t p.last := by rw [hp]; rfl
      rw [hvalue]
      exact .importing husing himport (ih hrest)
    | case7 t r hseparator hcomment husing e hparse => cases h
    | case8 t r hseparator hcomment husing p hparse ih =>
      obtain ⟨sts', hrest, rfl⟩ := map_eq_ok h
      obtain ⟨content, hdeclaration, hp⟩ := declaration_iff.mp hparse
      have hvalue : p.value = stated sc content t p.last := by rw [hp]; rfl
      rw [hvalue]
      exact .declaration hdeclaration (ih hrest)
  · intro h
    induction h with
    | nil => rw [statementsFrom]
    | separator hseparator _ ih => rw [statementsFrom_cons, if_pos hseparator, ih]
    | requirement hrequirement hparse _ ih =>
      rw [statementsFrom_requirement hrequirement hparse, ih]
      rfl
    | importing husing himport _ ih =>
      rw [statementsFrom_importing husing himport, ih]
      rfl
    | declaration hdeclaration _ ih =>
      rw [statementsFrom_declaration hdeclaration, ih]
      rfl

end Grammar
end ScriptModule
