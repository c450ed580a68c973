/-
  ScriptModule/Proofs/Recast.lean
  ===============================
  **Tokens at other places.**  A parser looks at what tokens say and at the source between
  them.  From tokens that say the same at other places, over a source that has the same
  between them, it reads the same; more tokens may stand behind if they start with a line
  end.
-/
import ScriptModule.Proofs.Coverage

namespace ScriptModule

/-! ### Recast tokens -/

/-- A change of places, and the tokens that stand behind those that are changed. -/
structure Recast where
  place : Position → Position
  behind : List Token

namespace Recast

variable {p : Recast} {t u : Token} {ts rest : List Token}

def token (p : Recast) (t : Token) : Token :=
  ⟨t.kind, t.text, p.place t.start, p.place t.stop, t.value⟩

def tokens (p : Recast) (ts : List Token) : List Token := ts.map p.token ++ p.behind

@[simp] theorem tokens_nil : p.tokens [] = p.behind := rfl

@[simp] theorem tokens_cons : p.tokens (t :: ts) = p.token t :: p.tokens ts := rfl

@[simp] theorem token_kind : (p.token t).kind = t.kind := rfl

@[simp] theorem token_text : (p.token t).text = t.text := rfl

@[simp] theorem token_value : (p.token t).value = t.value := rfl

theorem getLast?_map_token (more : List Token) (first : Token) :
    (more.map p.token).getLast?.getD (p.token first) = p.token (more.getLast?.getD first) := by
  rw [List.getLast?_map]
  cases more.getLast? <;> rfl

/-- Whether all tokens of a row lie inside. -/
def Within (inside : Token → Prop) (ts : List Token) : Prop := ∀ t ∈ ts, inside t

theorem Within.of_suffix {inside : Token → Prop} {us ts : List Token} (h : Within inside ts)
    (hsuffix : us <:+ ts) : Within inside us := by
  intro t ht
  exact h t (hsuffix.subset ht)

/-- The tokens inside have the same source between them in both scripts, and a line end or
    nothing follows. -/
structure Of (p : Recast) (sc whole : Script) (inside : Token → Prop) : Prop where
  slice : ∀ {t u}, inside t → inside u → whole.slice (p.token t) (p.token u) = sc.slice t u
  newline : ∀ t ∈ p.behind.head?, t.kind = .newline

open Script Grammar

variable {sc whole : Script} {inside : Token → Prop}

theorem Of.nextIs_tokens (h : p.Of sc whole inside) {k : TokenKind} (hk : k ≠ .newline)
    (ts : List Token) : nextIs k (p.tokens ts) = nextIs k ts := by
  cases ts with
  | cons t ts => rfl
  | nil =>
    rw [tokens_nil]
    cases hbehind : p.behind with
    | nil => rfl
    | cons t _ =>
      have ht := h.newline t (by simp [hbehind])
      simp [nextIs, ht, Ne.symm hk]

section

variable {q : Token → Bool} (hq : ∀ t, q (p.token t) = q t)

include hq

theorem dropWhile_cons (hdrop : ts.dropWhile q = t :: rest) :
    (p.tokens ts).dropWhile q = p.token t :: p.tokens rest := by
  have hmap : (ts.map p.token).dropWhile q = (ts.dropWhile q).map p.token := by
    rw [List.dropWhile_map]
    congr 2
    exact funext hq
  rw [tokens, List.dropWhile_append, hmap, hdrop]
  rfl

theorem Of.takeWhile_tokens (h : p.Of sc whole inside) (hend : ∀ t, t.kind = .newline → q t = false)
    (ts : List Token) : (p.tokens ts).takeWhile q = (ts.takeWhile q).map p.token := by
  induction ts with
  | nil =>
    rw [tokens_nil]
    cases hbehind : p.behind with
    | nil => rfl
    | cons t _ =>
      have ht := hend t (h.newline t (by simp [hbehind]))
      simp [ht]
  | cons t ts ih =>
    rw [tokens_cons, List.takeWhile_cons, List.takeWhile_cons, hq, ih]
    split <;> rfl

theorem Of.dropWhile_tokens (h : p.Of sc whole inside) (hend : ∀ t, t.kind = .newline → q t = false)
    (ts : List Token) : (p.tokens ts).dropWhile q = p.tokens (ts.dropWhile q) := by
  induction ts with
  | nil =>
    rw [tokens_nil]
    cases hbehind : p.behind with
    | nil => simp [hbehind]
    | cons t _ =>
      have ht := hend t (h.newline t (by simp [hbehind]))
      simp [ht, hbehind]
  | cons t ts ih =>
    rw [tokens_cons, List.dropWhile_cons, List.dropWhile_cons, hq, ih]
    split <;> rfl

end

/-! ### Groups and names -/

theorem groupEnd?_tokens {depth : Nat} (hend : groupEnd? depth ts = some (t, rest)) :
    groupEnd? depth (p.tokens ts) = some (p.token t, p.tokens rest) := by
  fun_induction groupEnd? depth ts with
  | case1 => cases hend
  | case2 depth u ts hopener ih =>
    unfold groupEnd?
    exact (if_pos hopener).trans (ih hend)
  | case3 u ts hopener hcloser =>
    cases hend
    exact (if_neg hopener).trans (if_pos hcloser)
  | case4 u ts hopener hcloser d ih =>
    exact (if_neg hopener).trans ((if_pos hcloser).trans (ih hend))
  | case5 depth u ts hopener hcloser ih =>
    unfold groupEnd?
    exact (if_neg hopener).trans ((if_neg hcloser).trans (ih hend))

theorem skipBlank_tokens (hblank : skipBlank ts = t :: rest) :
    skipBlank (p.tokens ts) = p.token t :: p.tokens rest :=
  dropWhile_cons (fun _ => rfl) hblank

theorem name_tokens {n : Text} (h : Name ts n rest) : Name (p.tokens ts) n (p.tokens rest) := by
  obtain ⟨hname⟩ := h
  exact .intro hname

theorem body_tokens (h : Body ts t rest) : Body (p.tokens ts) (p.token t) (p.tokens rest) := by
  obtain ⟨hblank, hbrace, hend⟩ := h
  exact .intro (skipBlank_tokens hblank) hbrace (groupEnd?_tokens hend)

/-! ### Attributes -/

theorem Of.afterAttribute_tokens (h : p.Of sc whole inside) (hafter : afterAttribute ts ≠ []) :
    afterAttribute (p.tokens ts) = p.tokens (afterAttribute ts) := by
  have hnext := h.nextIs_tokens (k := .variable) (by decide) ts
  unfold afterAttribute at hafter ⊢
  rw [hnext]
  by_cases hvariable : nextIs .variable ts = true
  · rw [if_pos hvariable, if_pos hvariable]
  · rw [if_neg hvariable] at hafter ⊢
    obtain ⟨u, us, hblank⟩ := List.exists_cons_of_ne_nil hafter
    rw [if_neg hvariable, skipBlank_tokens hblank, hblank, tokens_cons]

theorem Of.attributes_tokens (h : p.Of sc whole inside) {as : List Text}
    (hattributes : Attributes sc ts as rest) (hrest : rest ≠ []) (hin : Within inside ts) :
    Attributes whole (p.tokens ts) as (p.tokens rest) := by
  induction hattributes with
  | nil hnext => exact .nil ((h.nextIs_tokens (by decide) _).trans hnext)
  | @cons t close ts mid rest as hkind hend hmore ih =>
    have hmid := groupEnd?_suffix hend
    have hafter : afterAttribute mid ≠ [] := by
      intro hnil
      have hsuffix := hmore.suffix
      rw [hnil] at hsuffix
      exact hrest (List.suffix_nil.mp hsuffix)
    have hclose : inside close :=
      hin close (List.mem_cons_of_mem _ (hmid.subset List.mem_cons_self))
    have hlater : Within inside (afterAttribute mid) := by
      apply hin.of_suffix
      apply (afterAttribute_suffix mid).trans
      exact ((List.suffix_cons _ _).trans hmid).trans (List.suffix_cons _ _)
    have hplaced := ih hrest hlater
    rw [← h.afterAttribute_tokens hafter] at hplaced
    rw [← h.slice (hin t List.mem_cons_self) hclose]
    exact .cons hkind (groupEnd?_tokens hend) hplaced

/-! ### Enumerations -/

theorem Of.underlying_tokens (h : p.Of sc whole inside) {n : Option Text} (hunder : Underlying ts n rest) :
    Underlying (p.tokens ts) n (p.tokens rest) := by
  rcases hunder with hnext | ⟨hcolon, hname⟩
  · exact .none ((h.nextIs_tokens (by decide) _).trans hnext)
  · exact .some hcolon (name_tokens hname)

theorem Of.value_tokens (h : p.Of sc whole inside) {v : Option Text} (hvalue : Value sc ts v rest)
    (hin : Within inside ts) : Value whole (p.tokens ts) v (p.tokens rest) := by
  have hend : ∀ t : Token, t.kind = .newline → isValuePart t = false := by
    intro t ht
    simp [isValuePart, isMemberGap, ht]
  rcases hvalue with hnext | @⟨e, first, ts, more, hequals, htake⟩
  · exact .none ((h.nextIs_tokens (by decide) _).trans hnext)
  · have hparts : ∀ u ∈ first :: more, inside u := by
      intro u hu
      rw [← htake] at hu
      exact hin u (List.mem_cons_of_mem _ ((List.takeWhile_prefix _).subset hu))
    have hfirst := hparts first List.mem_cons_self
    have hlast := hparts _ (List.mem_of_getLast? (@List.getLast?_cons _ more first))
    rw [← h.slice hfirst hlast, ← getLast?_map_token, ← h.dropWhile_tokens (fun _ => rfl) hend]
    have htake' : (p.tokens ts).takeWhile isValuePart = p.token first :: more.map p.token := by
      rw [h.takeWhile_tokens (fun _ => rfl) hend, htake]
      rfl
    exact .some hequals htake'

theorem Of.members_tokens (h : p.Of sc whole inside) {ms : List EnumMember}
    (hmembers : Members sc ts ms t rest) (hin : Within inside ts) :
    Members whole (p.tokens ts) ms (p.token t) (p.tokens rest) := by
  induction hmembers with
  | nil hgap hclose => exact .nil (dropWhile_cons (fun _ => rfl) hgap) hclose
  | group hgap hopener hend _ ih =>
    have hinner := (List.suffix_cons _ _).trans (cons_suffix_of_dropWhile hgap)
    have hmid := (List.suffix_cons _ _).trans (groupEnd?_suffix hend)
    have hplaced := ih (hin.of_suffix (hmid.trans hinner))
    exact .group (dropWhile_cons (fun _ => rfl) hgap) hopener (groupEnd?_tokens hend) hplaced
  | @cons ts more _ _ u _ v ms hgap hname hvalue _ ih =>
    have hmore := (List.suffix_cons _ _).trans (cons_suffix_of_dropWhile hgap)
    have hplaced := ih (hin.of_suffix (hvalue.suffix.trans hmore))
    have hvalue' := h.value_tokens hvalue (hin.of_suffix hmore)
    have hgap' : (p.tokens ts).dropWhile isMemberGap = p.token u :: p.tokens more :=
      dropWhile_cons (fun _ => rfl) hgap
    exact @Members.cons whole _ _ _ _ (p.token u) _ v ms hgap' hname hvalue' hplaced

/-! ### Classes and functions -/

theorem baseTypesFrom_tokens {depth : Int} {base : Text} {bs : List Text}
    (heq : baseTypesFrom depth base ts = (bs, rest)) (hrest : rest ≠ []) :
    baseTypesFrom depth base (p.tokens ts) = (bs, p.tokens rest) := by
  induction ts generalizing depth base bs with
  | nil =>
    cases heq
    exact absurd rfl hrest
  | cons t ts ih =>
    rw [baseTypesFrom] at heq
    rw [tokens_cons, baseTypesFrom]
    split at heq
    · next hstop =>
      cases heq
      exact if_pos hstop
    · next hstop =>
      apply (if_neg hstop).trans
      split at heq
      · next hcomma =>
        obtain ⟨rfl, hsecond⟩ := Prod.mk.inj heq
        rw [ih (Prod.ext rfl hsecond)]
        exact if_pos hcomma
      · next hcomma => exact (if_neg hcomma).trans (ih heq)

theorem Of.baseTypes_tokens (h : p.Of sc whole inside) {bs : List Text} (hbases : BaseTypes ts bs rest)
    (hrest : rest ≠ []) : BaseTypes (p.tokens ts) bs (p.tokens rest) := by
  rcases hbases with hnext | ⟨hcolon, heq, hproper⟩
  · exact .none ((h.nextIs_tokens (by decide) _).trans hnext)
  · exact .some hcolon (baseTypesFrom_tokens heq hrest) hproper

theorem Of.functionName_tokens (h : p.Of sc whole inside) {n : Text} (hname : FunctionName ts n rest) :
    FunctionName (p.tokens ts) n (p.tokens rest) := by
  rcases hname with ⟨hplain, hnext⟩ | ⟨hscope, hcolon, hname⟩
  · exact .plain (name_tokens hplain) ((h.nextIs_tokens (by decide) _).trans hnext)
  · exact .scoped (name_tokens hscope) hcolon (name_tokens hname)

theorem Of.parameters_tokens (h : p.Of sc whole inside) (hparameters : Parameters ts rest) :
    Parameters (p.tokens ts) (p.tokens rest) := by
  rcases hparameters with hnext | ⟨hparen, hend⟩
  · exact .none ((h.nextIs_tokens (by decide) _).trans hnext)
  · exact .some hparen (groupEnd?_tokens hend)

/-! ### Expressions -/

/-- An expression that ends with the tokens ends in front of a line end as well, if its
    last kind does not continue it. -/
theorem expression_tokens (hnewline : ∀ t ∈ p.behind.head?, t.kind = .newline)
    {before : Option TokenKind} {es : List Token} (hexpression : Expression before ts es rest)
    (hlast : rest = [] → p.behind ≠ [] → continuesLine (es.foldl lastKind before) = false) :
    Expression before (p.tokens ts) (es.map p.token) (p.tokens rest) := by
  induction hexpression with
  | @atEnd before =>
    rw [tokens_nil]
    cases hbehind : p.behind with
    | nil => exact .atEnd
    | cons t _ =>
      have ht := hnewline t (by simp [hbehind])
      have hstop : continuesLine before = false := hlast rfl (by simp [hbehind])
      exact .stop (by simp [endsExpression, ht, hstop])
  | stop hends => exact .stop hends
  | @group before t close _ _ _ _ hends hopener hend _ ih =>
    refine .group hends hopener (groupEnd?_tokens hend) (ih fun hnil hbehind => ?_)
    have hkind : close.kind ≠ .comment := by
      intro hcomment
      have hcloser := groupEnd?_isCloser hend
      rw [hcomment] at hcloser
      cases hcloser
    have hfold := hlast hnil hbehind
    rw [List.foldl_cons, List.foldl_cons, lastKind.eq_def _ close, if_neg hkind] at hfold
    exact hfold
  | token hends hopener _ ih => exact .token hends hopener (ih hlast)

/-- Behind the last significant token of an expression its last kind is that of the token,
    or a line end. -/
theorem foldl_lastKind {es : List Token} {last : Token} {before : Option TokenKind}
    (hlast : (es.filter isSignificant).getLast? = some last) :
    es.foldl lastKind before = some last.kind ∨ es.foldl lastKind before = some .newline := by
  induction es using List.reverseRecOn with
  | nil => cases hlast
  | append_singleton es t ih =>
    rw [List.foldl_append, List.foldl_cons, List.foldl_nil]
    rw [List.filter_append] at hlast
    by_cases hcomment : t.kind = .comment
    · have hkind : lastKind (es.foldl lastKind before) t = es.foldl lastKind before :=
        if_pos hcomment
      rw [hkind]
      apply ih
      simpa [List.filter_cons, isSignificant, hcomment] using hlast
    · have hkind : lastKind (es.foldl lastKind before) t = some t.kind := if_neg hcomment
      rw [hkind]
      by_cases hnewline : t.kind = .newline
      · exact .inr (congrArg some hnewline)
      · obtain rfl : t = last := by
          simpa [List.filter_cons, isSignificant, hcomment, hnewline] using hlast
        exact .inl rfl

/-! ### Declarations and imports -/

theorem skipBlank_tokens_of_ne_nil (h : skipBlank ts ≠ []) :
    skipBlank (p.tokens ts) = p.tokens (skipBlank ts) := by
  obtain ⟨t, rest, hskip⟩ := List.exists_cons_of_ne_nil h
  rw [skipBlank_tokens hskip, hskip, tokens_cons]

/-- An assignment is read with the same content if the significant tokens of its expression
    are the same. -/
theorem Of.assignment_tokens (h : p.Of sc whole inside) {r es fs more rest' : List Token}
    {t e start : Token} {attrs : List Text} (hattributes : Attributes sc ts attrs (t :: e :: r))
    (hkind : t.kind = .variable) (hequals : e.kind = .equals)
    (hexpression : Expression none (skipBlank r) es rest)
    (hsignificant : es.filter isSignificant = start :: more) (hin : Within inside ts)
    (hexpression' : Expression none (skipBlank (p.tokens r)) fs rest')
    (hsame : fs.filter isSignificant = (es.filter isSignificant).map p.token) :
    Declaration whole (p.tokens ts) (.assignment {
      name := variableName t.text
      target := t.text
      expression := sc.slice start (more.getLast?.getD start)
      typeConstraint := if attrs.isEmpty then none else some attrs.flatten })
      (p.token (more.getLast?.getD start)) rest' := by
  have hattributes' := h.attributes_tokens hattributes (List.cons_ne_nil _ _) hin
  have hparts : ∀ u ∈ start :: more, inside u := by
    intro u hu
    rw [← hsignificant] at hu
    have hr := (skipBlank_suffix r).subset (hexpression.subset (List.mem_filter.mp hu).1)
    have hts := hattributes.suffix.subset (List.mem_cons_of_mem _ (List.mem_cons_of_mem _ hr))
    exact hin u hts
  have hstart := hparts start List.mem_cons_self
  have hfinal := hparts _ (List.mem_of_getLast? (@List.getLast?_cons _ more start))
  rw [hsignificant] at hsame
  rw [← h.slice hstart hfinal, ← getLast?_map_token]
  exact @Declaration.assignment whole _ (p.tokens r) _ _ _ (p.token t) (p.token e) _ _
    hattributes' hkind hequals hexpression' hsame

theorem Of.declaration_tokens (h : p.Of sc whole inside) {content : Content} {last : Token}
    (hdeclaration : Declaration sc ts content last rest) (hin : Within inside ts)
    (hlast : ∀ v, content = .assignment v → rest = [] → p.behind ≠ [] →
      continuesLine (some last.kind) = false) :
    Declaration whole (p.tokens ts) content (p.token last) (p.tokens rest) := by
  cases hdeclaration with
  | enumeration hattributes hkind hname hunder hblank hbrace hmembers =>
    have hattributes' := h.attributes_tokens hattributes (List.cons_ne_nil _ _) hin
    have hhead := (List.suffix_cons _ _).trans hattributes.suffix
    have hthird := hunder.suffix.trans (hname.suffix.trans hhead)
    have hinner := ((List.suffix_cons _ _).trans (cons_suffix_of_dropWhile hblank)).trans hthird
    have hmembers' := h.members_tokens hmembers (hin.of_suffix hinner)
    exact .enumeration hattributes' hkind (name_tokens hname) (h.underlying_tokens hunder)
      (skipBlank_tokens hblank) hbrace hmembers'
  | classType hattributes hkind hname hbases hbody =>
    have hattributes' := h.attributes_tokens hattributes (List.cons_ne_nil _ _) hin
    have hrest := hbody.suffix.ne_nil (List.cons_ne_nil _ _)
    exact .classType hattributes' hkind (name_tokens hname) (h.baseTypes_tokens hbases hrest)
      (body_tokens hbody)
  | function hattributes hkind hname hparameters hbody =>
    have hattributes' := h.attributes_tokens hattributes (List.cons_ne_nil _ _) hin
    exact .function hattributes' hkind (h.functionName_tokens hname)
      (h.parameters_tokens hparameters) (body_tokens hbody)
  | @assignment r es _ more t e start attrs hattributes hkind hequals hexpression hsignificant =>
    have hend := @List.getLast?_cons _ more start
    rw [← hsignificant] at hend
    have hexpression' := expression_tokens h.newline hexpression fun hnil hbehind => by
      have hstop := hlast _ rfl hnil hbehind
      rcases foldl_lastKind hend with hkind | hkind
      · rw [hkind]
        exact hstop
      · rw [hkind]
        rfl
    have hblank : skipBlank r ≠ [] := hexpression.ne_nil (by simp [hsignificant])
    rw [← skipBlank_tokens_of_ne_nil hblank] at hexpression'
    apply h.assignment_tokens hattributes hkind hequals hexpression hsignificant hin hexpression'
    rw [List.filter_map]
    rfl

theorem Of.importing_tokens (h : p.Of sc whole inside) {i : Import} {last : Token}
    (himport : Importing sc ts i last rest) (hin : Within inside ts) :
    Importing whole (p.tokens ts) i (p.token last) (p.tokens rest) := by
  have hend : ∀ t : Token, t.kind = .newline → isNamePart t = false := by
    intro t ht
    simp [isNamePart, endsDirective, ht]
  have hlast := hin last (himport.extent.subset List.mem_cons_self)
  obtain @⟨k, first, r, more, hkind, htake⟩ := himport
  have hfirst : inside first := by
    have hr : first ∈ r.takeWhile isNamePart := by simp [htake]
    exact hin first (List.mem_cons_of_mem _ ((List.takeWhile_prefix _).subset hr))
  have htake' : (p.tokens r).takeWhile isNamePart = p.token first :: more.map p.token := by
    rw [h.takeWhile_tokens (fun _ => rfl) hend, htake]
    rfl
  have hname : sc.importName first (more.getLast?.getD first) more.isEmpty =
      whole.importName (p.token first) ((more.map p.token).getLast?.getD (p.token first))
        (more.map p.token).isEmpty := by
    rw [getLast?_map_token, List.isEmpty_map, importName, importName, h.slice hfirst hlast]
    rfl
  rw [hname, ← getLast?_map_token, ← h.dropWhile_tokens (fun _ => rfl) hend]
  exact .intro hkind htake'

end Recast
end ScriptModule
