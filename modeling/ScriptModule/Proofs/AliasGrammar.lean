/-
  ScriptModule/Proofs/AliasGrammar.lean
  =====================================
  **What an alias attribute may be made of.**  But for line ends and comments, an alias
  attribute is read exactly if it is `[ Alias ( L ) ]` or `[ Alias ( @( L ) ) ]` for a list
  `L` of names with commas between them.  Line ends and comments may stand anywhere but in
  front of the parenthesis and of the at sign.
-/
import ScriptModule.Outcome
import ScriptModule.Proofs.AttributeBlock
import ScriptModule.Script.Assignment

namespace ScriptModule.Script

/-! ### The grammar -/

/-- A list of names with commas between them. -/
inductive AliasNames : List Token → List AliasDeclaration → Prop where
  | last {t : Token} {a : AliasDeclaration} : aliasOf? t = some a → AliasNames [t] [a]
  | more {t comma : Token} {ts : List Token} {a : AliasDeclaration}
      {as : List AliasDeclaration} : aliasOf? t = some a → comma.kind = .comma →
      AliasNames ts as → AliasNames (t :: comma :: ts) (a :: as)

/-- A list of names; it may be empty. -/
inductive AliasList : List Token → List AliasDeclaration → Prop where
  | empty : AliasList [] []
  | names {ts : List Token} {as : List AliasDeclaration} : AliasNames ts as → AliasList ts as

/-- An alias attribute that declares names, from its opening to its closing bracket. -/
inductive AliasAttribute : List Token → List AliasDeclaration → Prop where
  | plain {o word paren p c : Token} {ts : List Token} {as : List AliasDeclaration} :
      o.kind = .leftBracket → word.isWord "Alias" = true → paren.kind = .leftParen →
      AliasList ts as → p.kind = .rightParen → c.kind = .rightBracket →
      AliasAttribute (o :: word :: paren :: (ts ++ [p, c])) as
  | array {o word paren at' p q c : Token} {ts : List Token} {as : List AliasDeclaration} :
      o.kind = .leftBracket → word.isWord "Alias" = true → paren.kind = .leftParen →
      at'.kind = .atParen → AliasList ts as → p.kind = .rightParen → q.kind = .rightParen →
      c.kind = .rightBracket →
      AliasAttribute (o :: word :: paren :: at' :: (ts ++ [p, q, c])) as

/-- Whether the parenthesis stands directly behind the name of an attribute, and an at
    sign directly behind the parenthesis, if there is one. -/
def opensDirectly : List Token → Bool
  | _ :: _ :: paren :: r =>
    paren.kind == .leftParen && (!nextIs .atParen (skipLines r) || nextIs .atParen r)
  | _ => false

/-! ### Line ends and comments -/

theorem filter_skipLines (ts : List Token) :
    (skipLines ts).filter isSignificant = ts.filter isSignificant := by
  induction ts with
  | nil => rfl
  | cons t ts ih =>
    rw [skipLines, List.dropWhile_cons]
    split
    · next ht =>
      have hdrop : isSignificant t = false := by
        simp only [Bool.or_eq_true, beq_iff_eq] at ht
        rcases ht with ht | ht <;> simp [isSignificant, ht]
      rw [List.filter_cons, hdrop]
      exact ih
    · rfl

theorem significant_of_skipLines {ts r : List Token} {t : Token} (h : skipLines ts = t :: r) :
    isSignificant t = true := by
  have hhead :=
    List.head?_dropWhile_not (fun t : Token => t.kind == .newline || t.kind == .comment) ts
  rw [← skipLines, h] at hhead
  simpa [isSignificant, and_comm] using hhead

theorem filter_of_skipLines_nil {ts : List Token} (h : skipLines ts = []) :
    ts.filter isSignificant = [] := by
  rw [← filter_skipLines, h]
  rfl

theorem filter_of_skipLines_cons {ts r : List Token} {t : Token} (h : skipLines ts = t :: r) :
    ts.filter isSignificant = t :: r.filter isSignificant := by
  rw [← filter_skipLines, h, List.filter_cons, if_pos (significant_of_skipLines h)]

theorem skipLines_of_filter_cons {ts us : List Token} {t : Token}
    (h : ts.filter isSignificant = t :: us) :
    ∃ r, skipLines ts = t :: r ∧ r.filter isSignificant = us := by
  rcases hskip : skipLines ts with _ | ⟨t', r⟩
  · rw [filter_of_skipLines_nil hskip] at h
    cases h
  · rw [filter_of_skipLines_cons hskip] at h
    obtain ⟨rfl, hus⟩ := List.cons.inj h
    exact ⟨r, rfl, hus⟩

theorem suffix_of_skipLines {ts r : List Token} {t : Token} (h : skipLines ts = t :: r) :
    r <:+ ts :=
  (List.suffix_cons t r).trans (h ▸ List.dropWhile_suffix _)

/-- In front of a last token that counts, exactly one that counts is left if one token is. -/
theorem skipLines_singleton {ts : List Token} {t : Token}
    (hlast : ∀ c ∈ ts.getLast?, isSignificant c = true) :
    skipLines ts = [t] ↔ ts.filter isSignificant = [t] := by
  constructor
  · intro h
    rw [filter_of_skipLines_cons h, List.filter_nil]
  · intro h
    obtain ⟨r, hskip, hr⟩ := skipLines_of_filter_cons h
    rcases List.eq_nil_or_concat r with rfl | ⟨front, c, rfl⟩
    · exact hskip
    · obtain ⟨a, rfl⟩ := suffix_of_skipLines hskip
      have hc := hlast c (by simp)
      simp [hc] at hr

/-! ### Lists of names -/

section

variable {sc : Script} {opener : Token}

theorem aliasOf?_kind {t : Token} {a : AliasDeclaration} (h : aliasOf? t = some a) :
    t.kind ≠ .rightParen ∧ t.kind ≠ .atParen := by
  unfold aliasOf? at h
  split at h
  · next hkind => simp [hkind]
  · split at h
    · next hkind => simp [hkind]
    · cases h

/-- A name in front of another token that counts, which decides how the list goes on. -/
theorem aliasNames_of_name {ts r more : List Token} {t u : Token} {a : AliasDeclaration}
    (hskip : skipLines ts = t :: r) (ha : aliasOf? t = some a)
    (hnext : skipLines r = u :: more) :
    sc.aliasNames opener ts =
      if u.kind = .comma then
        (sc.aliasNames opener more).map fun (as, rest) => (a :: as, rest)
      else if u.kind = .rightParen then .ok ([a], more)
      else .error (sc.aliasFault opener u more) := by
  rw [aliasNames]
  split
  · next hnone => cases hskip.symm.trans hnone
  · next t' r' hsome =>
    cases hskip.symm.trans hsome
    rw [ha]
    simp only
    split
    · next hnone => cases hnext.symm.trans hnone
    · next u' more' hsome =>
      cases hnext.symm.trans hsome
      rfl

theorem aliasNames_sound {ts rest : List Token} {as : List AliasDeclaration}
    (h : sc.aliasNames opener ts = .ok (as, rest)) :
    rest <:+ ts ∧ ∃ us p, AliasNames us as ∧ p.kind = .rightParen ∧
      ts.filter isSignificant = us ++ p :: rest.filter isSignificant := by
  fun_induction aliasNames sc opener ts generalizing as with
  | case1 => cases h
  | case2 => cases h
  | case3 => cases h
  | case4 ts t r hskip a ha u more hnext hcomma ih =>
    obtain ⟨⟨as', rest'⟩, hmore, hpair⟩ := map_eq_ok h
    cases hpair
    obtain ⟨hsuffix, us, p, hnames, hp, hfilter⟩ := ih hmore
    refine ⟨?_, t :: u :: us, p, .more ha hcomma hnames, hp, ?_⟩
    · exact (hsuffix.trans (suffix_of_skipLines hnext)).trans (suffix_of_skipLines hskip)
    · rw [filter_of_skipLines_cons hskip, filter_of_skipLines_cons hnext, hfilter]
      rfl
  | case5 ts t r hskip a ha u more hnext hcomma hparen =>
    cases h
    refine ⟨?_, [t], u, .last ha, hparen, ?_⟩
    · exact (suffix_of_skipLines hnext).trans (suffix_of_skipLines hskip)
    · rw [filter_of_skipLines_cons hskip, filter_of_skipLines_cons hnext]
      rfl
  | case6 => cases h

theorem aliasNames_complete (sc : Script) (opener : Token) {us : List Token}
    {as : List AliasDeclaration}
    (h : AliasNames us as) {ts vs : List Token} {p : Token} (hp : p.kind = .rightParen)
    (hfilter : ts.filter isSignificant = us ++ p :: vs) :
    ∃ rest, sc.aliasNames opener ts = .ok (as, rest) ∧ rest.filter isSignificant = vs := by
  induction h generalizing ts with
  | @last t a ha =>
    obtain ⟨r, hskip, hr⟩ := skipLines_of_filter_cons hfilter
    obtain ⟨rest, hnext, hrest⟩ := skipLines_of_filter_cons hr
    refine ⟨rest, ?_, hrest⟩
    rw [aliasNames_of_name hskip ha hnext, if_neg (by rw [hp]; decide), if_pos hp]
  | @more t comma us a as ha hcomma _ ih =>
    obtain ⟨r, hskip, hr⟩ := skipLines_of_filter_cons hfilter
    obtain ⟨more, hnext, hmore⟩ := skipLines_of_filter_cons hr
    obtain ⟨rest, hok, hrest⟩ := ih hmore
    refine ⟨rest, ?_, hrest⟩
    rw [aliasNames_of_name hskip ha hnext, if_pos hcomma, hok]
    rfl

theorem aliasList_sound {ts rest : List Token} {as : List AliasDeclaration}
    (h : sc.aliasList opener ts = .ok (as, rest)) :
    rest <:+ ts ∧ ∃ us p, AliasList us as ∧ p.kind = .rightParen ∧
      ts.filter isSignificant = us ++ p :: rest.filter isSignificant := by
  rw [aliasList] at h
  split at h
  · cases h
  · next t r hskip =>
    split at h
    · next hparen =>
      cases h
      exact ⟨suffix_of_skipLines hskip, [], t, .empty, hparen, filter_of_skipLines_cons hskip⟩
    · obtain ⟨hsuffix, us, p, hnames, hp, hfilter⟩ := aliasNames_sound h
      have hts : skipLines ts <:+ ts := List.dropWhile_suffix _
      refine ⟨hsuffix.trans (hskip ▸ hts), us, p, .names hnames, hp, ?_⟩
      rw [← filter_skipLines, hskip, hfilter]

theorem aliasList_complete (sc : Script) (opener : Token) {us : List Token}
    {as : List AliasDeclaration}
    (h : AliasList us as) {ts vs : List Token} {p : Token} (hp : p.kind = .rightParen)
    (hfilter : ts.filter isSignificant = us ++ p :: vs) :
    ∃ rest, sc.aliasList opener ts = .ok (as, rest) ∧ rest.filter isSignificant = vs := by
  cases h with
  | empty =>
    obtain ⟨rest, hskip, hrest⟩ := skipLines_of_filter_cons hfilter
    exact ⟨rest, by rw [aliasList, hskip]; exact if_pos hp, hrest⟩
  | names h =>
    have hskipped : (skipLines ts).filter isSignificant = us ++ p :: vs := by
      rw [filter_skipLines, hfilter]
    obtain ⟨rest, hok, hrest⟩ := aliasNames_complete sc opener h hp hskipped
    refine ⟨rest, ?_, hrest⟩
    obtain ⟨t, us', rfl, ht⟩ : ∃ t us', us = t :: us' ∧ t.kind ≠ .rightParen := by
      cases h with
      | last ha => exact ⟨_, _, rfl, (aliasOf?_kind ha).1⟩
      | more ha => exact ⟨_, _, rfl, (aliasOf?_kind ha).1⟩
    obtain ⟨r, hskip, -⟩ := skipLines_of_filter_cons hfilter
    rw [hskip] at hok
    rw [aliasList, hskip]
    exact (if_neg ht).trans hok

/-- No at sign starts what a list of names and a closing parenthesis make up. -/
theorem nextIs_atParen_of_list {us vs ts : List Token} {as : List AliasDeclaration} {p : Token}
    (h : AliasList us as) (hp : p.kind = .rightParen)
    (hfilter : ts.filter isSignificant = us ++ p :: vs) :
    nextIs .atParen (skipLines ts) = false := by
  have hhead : ∃ t us', us ++ p :: vs = t :: us' ∧ t.kind ≠ .atParen := by
    cases h with
    | empty => exact ⟨p, vs, rfl, by rw [hp]; decide⟩
    | names h =>
      cases h with
      | last ha => exact ⟨_, _, rfl, (aliasOf?_kind ha).2⟩
      | more ha => exact ⟨_, _, rfl, (aliasOf?_kind ha).2⟩
  obtain ⟨t, us', hcons, ht⟩ := hhead
  obtain ⟨r, hskip, -⟩ := skipLines_of_filter_cons (hfilter.trans hcons)
  rw [hskip]
  exact beq_eq_false_iff_ne.mpr ht

theorem nextIs_skipLines {ts : List Token} (h : nextIs .atParen ts = true) :
    skipLines ts = ts := by
  cases ts with
  | nil => cases h
  | cons t ts =>
    have hkind : t.kind = .atParen := beq_iff_eq.mp h
    rw [skipLines, List.dropWhile_cons_of_neg]
    simp [hkind]

/-- What is left behind a list of names: another parenthesis, if the list is in an array,
    and the closing bracket. -/
theorem arrayEnd_iff {nested : Bool} {ts rest : List Token} :
    sc.arrayEnd opener nested ts = .ok rest ↔
      if nested then ∃ q, skipLines ts = q :: rest ∧ q.kind = .rightParen else ts = rest := by
  cases nested with
  | false => simp [arrayEnd]
  | true =>
    simp only [arrayEnd, if_true]
    cases hskip : skipLines ts with
    | nil => simp
    | cons q r =>
      by_cases hq : q.kind = .rightParen
      · simp [hq, and_assoc]
      · simp [hq, and_assoc]

end

/-! ### An attribute -/

section

variable {ts : List Token} {c : Token} (hlast : ts.getLast? = some c)
  (hc : c.kind = .rightBracket)
include hlast hc

theorem getLast?_filter : (ts.filter isSignificant).getLast? = some c := by
  obtain ⟨front, rfl⟩ := List.getLast?_eq_some_iff.mp hlast
  have hsignificant : isSignificant c = true := by simp [isSignificant, hc]
  simp [hsignificant]

theorem significant_of_suffix {rest : List Token} (hsuffix : rest <:+ ts) :
    ∀ x ∈ rest.getLast?, isSignificant x = true := by
  intro x hx
  obtain ⟨front, rfl⟩ := hsuffix
  rw [List.getLast?_append_of_ne_nil _ (by rintro rfl; cases hx), hx] at hlast
  cases hlast
  simp [isSignificant, hc]

/-- Behind a closing parenthesis the closing bracket is left, if at most one token is. -/
theorem closer_left {front rest : List Token} {p : Token} (hp : p.kind = .rightParen)
    (hfilter : ts.filter isSignificant = front ++ p :: rest.filter isSignificant)
    (hleft : skipLines rest = [] ∨ ∃ t, skipLines rest = [t]) :
    rest.filter isSignificant = [c] := by
  have hend := getLast?_filter hlast hc
  rw [hfilter] at hend
  rcases hleft with hnone | ⟨t, hone⟩
  · rw [filter_of_skipLines_nil hnone, List.getLast?_concat] at hend
    cases hend
    cases hp.symm.trans hc
  · rw [filter_of_skipLines_cons hone, List.filter_nil] at hend ⊢
    have hlasts : (front ++ [p, t]).getLast? = some t := by simp
    cases hlasts.symm.trans hend
    rfl

/-- The names behind the opening mark of a list, which is inside an array or not, up to the
    closing bracket. -/
theorem aliasAttribute_behind_iff (sc : Script) (opener : Token) (nested : Bool)
    (as : List AliasDeclaration) :
    (do
      let (as, rest) ← sc.aliasList opener ts
      let rest ← sc.arrayEnd opener nested rest
      match skipLines rest with
      | [] => .ok as
      | [_] => .ok as
      | t :: _ => .error (sc.reportToken (.trailingAlias (some t.text)) t)) = .ok as ↔
    ∃ us p ends, AliasList us as ∧ p.kind = .rightParen ∧
      ts.filter isSignificant = us ++ p :: ends ∧
      if nested then ∃ q, q.kind = .rightParen ∧ ends = [q, c] else ends = [c] := by
  constructor
  · intro h
    obtain ⟨⟨as', rest⟩, hlist, h⟩ := bind_eq_ok.mp h
    obtain ⟨rest', harray, h⟩ := bind_eq_ok.mp h
    obtain ⟨-, us, p, hnames, hp, hfilter⟩ := aliasList_sound hlist
    obtain ⟨hleft, rfl⟩ :
        (skipLines rest' = [] ∨ ∃ t, skipLines rest' = [t]) ∧ as' = as := by
      split at h
      · next hnone => exact ⟨.inl hnone, by cases h; rfl⟩
      · next t hone => exact ⟨.inr ⟨t, hone⟩, by cases h; rfl⟩
      · cases h
    refine ⟨us, p, _, hnames, hp, hfilter, ?_⟩
    cases nested with
    | false =>
      obtain rfl : rest = rest' := arrayEnd_iff.mp harray
      exact closer_left hlast hc hp hfilter hleft
    | true =>
      obtain ⟨q, hskip, hq⟩ := arrayEnd_iff.mp harray
      rw [filter_of_skipLines_cons hskip] at hfilter ⊢
      have hall : ts.filter isSignificant = (us ++ [p]) ++ q :: rest'.filter isSignificant := by
        rw [hfilter, List.append_assoc]
        rfl
      exact ⟨q, hq, by rw [closer_left hlast hc hq hall hleft]⟩
  · rintro ⟨us, p, ends, hnames, hp, hfilter, hends⟩
    obtain ⟨rest, hlist, hrest⟩ := aliasList_complete sc opener hnames hp hfilter
    have hsuffix := (aliasList_sound hlist).1
    apply bind_eq_ok.mpr
    refine ⟨_, hlist, bind_eq_ok.mpr ?_⟩
    cases nested with
    | false =>
      have hone : skipLines rest = [c] :=
        (skipLines_singleton (significant_of_suffix hlast hc hsuffix)).mpr (hrest.trans hends)
      refine ⟨rest, arrayEnd_iff.mpr rfl, ?_⟩
      rw [hone]
    | true =>
      obtain ⟨q, hq, rfl⟩ := hends
      obtain ⟨rest', hskip, hrest'⟩ := skipLines_of_filter_cons hrest
      have hbehind := (suffix_of_skipLines hskip).trans hsuffix
      have hone : skipLines rest' = [c] :=
        (skipLines_singleton (significant_of_suffix hlast hc hbehind)).mpr hrest'
      refine ⟨rest', arrayEnd_iff.mpr ⟨q, hskip, hq⟩, ?_⟩
      rw [hone]

end

/-- The tokens of an alias attribute behind its name, up to its closing bracket. -/
theorem aliasAttribute_iff {sc : Script} {ts : List Token} {c : Token}
    (hlast : ts.getLast? = some c) (hc : c.kind = .rightBracket) {as : List AliasDeclaration} :
    sc.aliasAttribute ts = .ok as ↔
      ∃ paren r, ts = paren :: r ∧ paren.kind = .leftParen ∧
        (nextIs .atParen (skipLines r) = true → nextIs .atParen r = true) ∧
        ((∃ us p, AliasList us as ∧ p.kind = .rightParen ∧
            r.filter isSignificant = us ++ [p, c]) ∨
          ∃ at' us p q, at'.kind = .atParen ∧ AliasList us as ∧ p.kind = .rightParen ∧
            q.kind = .rightParen ∧ r.filter isSignificant = at' :: (us ++ [p, q, c])) := by
  obtain ⟨paren, r, rfl⟩ : ∃ paren r, ts = paren :: r :=
    List.exists_cons_of_ne_nil (by rintro rfl; cases hlast)
  by_cases hparen : paren.kind = .leftParen
  · have hr : r.getLast? = some c := by
      cases r with
      | nil =>
        cases hlast
        cases hparen.symm.trans hc
      | cons t r => rwa [List.getLast?_cons_cons] at hlast
    rw [aliasAttribute, if_pos hparen]
    cases hnested : nextIs .atParen r with
    | false =>
      refine (aliasAttribute_behind_iff hr hc sc paren false as).trans ?_
      constructor
      · rintro ⟨us, p, ends, hnames, hp, hfilter, rfl⟩
        refine ⟨paren, r, rfl, hparen, ?_, .inl ⟨us, p, hnames, hp, hfilter⟩⟩
        intro hat
        cases (nextIs_atParen_of_list hnames hp hfilter).symm.trans hat
      · rintro ⟨_, _, heq, -, hdirect, hform⟩
        cases heq
        rcases hform with ⟨us, p, hnames, hp, hfilter⟩ | ⟨at', us, p, q, hat, -, -, -, hfilter⟩
        · exact ⟨us, p, [c], hnames, hp, hfilter, rfl⟩
        · obtain ⟨r', hskip, -⟩ := skipLines_of_filter_cons hfilter
          have hnext := hdirect (by rw [hskip]; exact beq_iff_eq.mpr hat)
          cases hnested.symm.trans hnext
    | true =>
      obtain ⟨at', r', rfl⟩ : ∃ at' r', r = at' :: r' :=
        List.exists_cons_of_ne_nil (by rintro rfl; cases hnested)
      have hat : at'.kind = .atParen := beq_iff_eq.mp hnested
      have hcounts : isSignificant at' = true := by simp [isSignificant, hat]
      have hr' : r'.getLast? = some c := by
        cases r' with
        | nil =>
          cases hr
          cases hat.symm.trans hc
        | cons t r => rwa [List.getLast?_cons_cons] at hr
      refine (aliasAttribute_behind_iff hr' hc sc paren true as).trans ?_
      constructor
      · rintro ⟨us, p, ends, hnames, hp, hfilter, q, hq, rfl⟩
        refine ⟨paren, _, rfl, hparen, fun _ => hnested,
          .inr ⟨at', us, p, q, hat, hnames, hp, hq, ?_⟩⟩
        rw [List.filter_cons, if_pos hcounts, hfilter]
      · rintro ⟨_, _, heq, -, -, hform⟩
        cases heq
        rw [List.filter_cons, if_pos hcounts] at hform
        rcases hform with ⟨us, p, hnames, hp, hfilter⟩ | ⟨_, us, p, q, -, hnames, hp, hq, hfilter⟩
        · have hfirst : (at' :: r').filter isSignificant = us ++ p :: [c] := by
            rw [List.filter_cons, if_pos hcounts, hfilter]
          have hno := nextIs_atParen_of_list hnames hp hfirst
          rw [nextIs_skipLines hnested, hnested] at hno
          cases hno
        · exact ⟨us, p, [q, c], hnames, hp, (List.cons.inj hfilter).2, q, hq, rfl⟩
  · rw [aliasAttribute, if_neg hparen]
    constructor
    · intro h
      cases h
    · rintro ⟨_, _, heq, hleft, -⟩
      cases heq
      exact absurd hleft hparen

/-! ### Problems -/

/-- Whether a report is about the form of an alias attribute. -/
def IsAliasReport (e : Report) : Prop :=
  e.problem.code = "ENT-0010".toList ∨ e.problem.code = "ENT-0011".toList

section

variable {sc : Script} {opener : Token} {e : Report}

theorem aliasNames_error {ts : List Token} (h : sc.aliasNames opener ts = .error e) :
    IsAliasReport e := by
  have hfault : ∀ t r, IsAliasReport (sc.aliasFault opener t r) := by
    intro t r
    unfold aliasFault
    split
    · exact .inr rfl
    · exact .inl rfl
  fun_induction aliasNames sc opener ts with
  | case1 => cases h; exact .inr rfl
  | case2 => cases h; exact hfault _ _
  | case3 => cases h; exact .inr rfl
  | case4 ts t r hskip a ha u more hnext hcomma ih =>
    rcases hmore : sc.aliasNames opener more with e' | p
    · rw [hmore] at h
      cases h
      exact ih hmore
    · rw [hmore] at h
      cases h
  | case5 => cases h
  | case6 => cases h; exact hfault _ _

theorem aliasList_error {ts : List Token} (h : sc.aliasList opener ts = .error e) :
    IsAliasReport e := by
  rw [aliasList] at h
  split at h
  · cases h
    exact .inr rfl
  · split at h
    · cases h
    · exact aliasNames_error h

theorem arrayEnd_error {nested : Bool} {ts : List Token}
    (h : sc.arrayEnd opener nested ts = .error e) : IsAliasReport e := by
  rw [arrayEnd] at h
  split at h
  · split at h
    · split at h
      · cases h
      · cases h
        exact .inr rfl
    · cases h
      exact .inr rfl
  · cases h

theorem aliasAttribute_error {ts : List Token} (h : sc.aliasAttribute ts = .error e) :
    IsAliasReport e := by
  unfold aliasAttribute at h
  split at h
  · cases h
  · split at h
    · rcases bind_eq_error.mp h with hlist | ⟨⟨as, rest⟩, -, h⟩
      · exact aliasList_error hlist
      · rcases bind_eq_error.mp h with harray | ⟨rest', -, h⟩
        · exact arrayEnd_error harray
        · split at h
          · cases h
          · cases h
          · cases h
            exact .inl rfl
    · cases h
      exact .inl rfl

end

/-! ### Attributes in front of a parameter block -/

/-- **An alias attribute is read exactly if it is of the form.**  Of a group in front of a
    token, such as a parameter keyword, that starts with the word `Alias`, the names are read
    if its tokens that count are an alias attribute and its list opens directly; then they
    are the names of the list, with their places.  Otherwise its form is reported. -/
theorem groupAliases_grammar {sc : Script} {i : Nat} {o word : Token} {r : List Token}
    (hgroup : o :: word :: r ∈ attributeGroups (sc.tokens.take i).reverse)
    (hword : word.isWord "Alias" = true) :
    (∀ as, sc.groupAliases (o :: word :: r) = .ok as ↔
      opensDirectly (o :: word :: r) = true ∧
        AliasAttribute ((o :: word :: r).filter isSignificant) as) ∧
    ∀ e, sc.groupAliases (o :: word :: r) = .error e → IsAliasReport e := by
  obtain ⟨o', mid, c, heq, ho, hc⟩ := brackets_of_mem_attributeGroups hgroup
  obtain ⟨rfl, htail⟩ := List.cons.inj heq
  have hkind : word.kind = .word := by
    simp only [Token.isWord, Bool.and_eq_true, beq_iff_eq] at hword
    exact hword.1
  obtain ⟨front, rfl⟩ : ∃ front, r = front ++ [c] := by
    cases mid with
    | nil =>
      obtain ⟨rfl, -⟩ := List.cons.inj htail
      cases hkind.symm.trans hc
    | cons t mid => exact ⟨mid, (List.cons.inj htail).2⟩
  have hlast : (front ++ [c]).getLast? = some c := List.getLast?_concat
  have hne : (front ++ [c]).isEmpty = false := by cases front <;> rfl
  have haliases : sc.groupAliases (o :: word :: (front ++ [c])) =
      sc.aliasAttribute (front ++ [c]) := by
    rw [groupAliases, hne, hword]
    rfl
  have hcounted : (o :: word :: (front ++ [c])).filter isSignificant =
      o :: word :: (front ++ [c]).filter isSignificant := by
    have h1 : isSignificant o = true := by simp [isSignificant, ho]
    have h2 : isSignificant word = true := by simp [isSignificant, hkind]
    rw [List.filter_cons, if_pos h1, List.filter_cons, if_pos h2]
  rw [haliases, hcounted]
  refine ⟨fun as => ?_, fun e he => aliasAttribute_error he⟩
  rw [aliasAttribute_iff hlast hc]
  constructor
  · rintro ⟨paren, r, hr, hparen, hdirect, hform⟩
    have hcounts : isSignificant paren = true := by simp [isSignificant, hparen]
    rw [hr, List.filter_cons, if_pos hcounts]
    refine ⟨?_, ?_⟩
    · simpa [opensDirectly, hparen, imp_iff_not_or] using hdirect
    · rcases hform with ⟨us, p, hnames, hp, hfilter⟩ | ⟨at', us, p, q, hat, hnames, hp, hq, hfilter⟩
      · rw [hfilter]
        exact .plain ho hword hparen hnames hp hc
      · rw [hfilter]
        exact .array ho hword hparen hat hnames hp hq hc
  · rintro ⟨hdirect, hform⟩
    obtain ⟨paren, r, hr⟩ := List.exists_cons_of_ne_nil (List.append_ne_nil_of_right_ne_nil front
      (List.cons_ne_nil c []))
    rw [hr] at hdirect hform hlast ⊢
    simp only [opensDirectly, Bool.and_eq_true, beq_iff_eq, Bool.or_eq_true, Bool.not_eq_true']
      at hdirect
    obtain ⟨hparen, hdirect⟩ := hdirect
    have hcounts : isSignificant paren = true := by simp [isSignificant, hparen]
    have hend := getLast?_filter hlast hc
    refine ⟨paren, r, rfl, hparen, fun hat => hdirect.resolve_left (by rw [hat]; decide), ?_⟩
    rw [List.filter_cons, if_pos hcounts] at hform hend
    generalize r.filter isSignificant = counted at hform hend
    cases hform with
    | @plain _ _ _ p c' us _ _ _ _ hnames hp _ =>
      have hends : paren :: (us ++ [p, c']) = (paren :: us ++ [p]) ++ [c'] := by simp
      rw [hends, List.getLast?_concat] at hend
      cases hend
      exact .inl ⟨us, p, hnames, hp, rfl⟩
    | @array _ _ _ at' p q c' us _ _ _ _ hat hnames hp hq _ =>
      have hends : paren :: at' :: (us ++ [p, q, c']) = (paren :: at' :: us ++ [p, q]) ++ [c'] := by
        simp
      rw [hends, List.getLast?_concat] at hend
      cases hend
      exact .inr ⟨at', us, p, q, hat, hnames, hp, hq, rfl⟩

/-- Line ends and a comment inside the list and behind it. -/
theorem groupAliases_grammar_remarks :
    ∃ sc i o word r, ofSource none "[Alias('a', # first
 b
) ]
param()".toList = .ok sc ∧ paramIndex? sc.tokens = some i ∧
      o :: word :: r ∈ attributeGroups (sc.tokens.take i).reverse ∧
      word.isWord "Alias" = true ∧ opensDirectly (o :: word :: r) = true ∧
      AliasAttribute ((o :: word :: r).filter isSignificant)
        [⟨"a".toList, 1, 8⟩, ⟨"b".toList, 2, 2⟩] := by
  have hrun : ((ofSource none "[Alias('a', # first
 b
) ]
param()".toList).toOption.any fun sc => (paramIndex? sc.tokens).any fun i =>
      (attributeGroups (sc.tokens.take i).reverse).any fun g =>
        (g[1]?.any fun word => word.isWord "Alias") && (sc.groupAliases g).toOption.any
          fun as => as = [⟨"a".toList, 1, 8⟩, ⟨"b".toList, 2, 2⟩]) = true := by
    decide +kernel
  obtain ⟨sc, hsource, hrun⟩ := toOption_any.mp hrun
  obtain ⟨i, hi, hrun⟩ := (Option.any_eq_true _ _).mp hrun
  obtain ⟨g, hg, hrun⟩ := List.any_eq_true.mp hrun
  obtain ⟨hword, hrun⟩ := (Bool.and_eq_true _ _).mp hrun
  rcases g with _ | ⟨o, _ | ⟨word, r⟩⟩
  · cases hword
  · cases hword
  · obtain ⟨as, has, hrun⟩ := toOption_any.mp hrun
    obtain rfl := of_decide_eq_true hrun
    obtain ⟨hdirect, hform⟩ := ((groupAliases_grammar hg hword).1 _).mp has
    exact ⟨sc, i, o, word, r, hsource, hi, hg, hword, hdirect, hform⟩

/-- A line end in front of the at sign is not skipped, though one behind it is: the tokens
    that count are an alias attribute, and the at sign is reported. -/
theorem groupAliases_array_on_next_line :
    ∃ sc i g e, ofSource none "[Alias(
@('a1'))]
param()".toList = .ok sc ∧ paramIndex? sc.tokens = some i ∧
      g ∈ attributeGroups (sc.tokens.take i).reverse ∧
      AliasAttribute (g.filter isSignificant) [⟨"a1".toList, 2, 3⟩] ∧
      sc.groupAliases g = .error e ∧ e.problem = .unexpectedAlias (some "@(".toList) := by
  have hrun : ((ofSource none "[Alias(
@('a1'))]
param()".toList).toOption.any fun sc => (paramIndex? sc.tokens).any fun i =>
      (attributeGroups (sc.tokens.take i).reverse).any fun g =>
        (g.filter isSignificant).map Token.kind = [.leftBracket, .word, .leftParen, .atParen,
            .string, .rightParen, .rightParen, .rightBracket] ∧
          ((g.filter isSignificant)[1]?.any fun word => word.isWord "Alias") = true ∧
          (g.filter isSignificant)[4]?.bind aliasOf? = some ⟨"a1".toList, 2, 3⟩ ∧
          (sc.groupAliases g).mapError Report.problem =
            .error (.unexpectedAlias (some "@(".toList))) = true := by
    decide +kernel
  obtain ⟨sc, hsource, hrun⟩ := toOption_any.mp hrun
  obtain ⟨i, hi, hrun⟩ := (Option.any_eq_true _ _).mp hrun
  obtain ⟨g, hg, hrun⟩ := List.any_eq_true.mp hrun
  obtain ⟨hkinds, hword, ht, herror⟩ := of_decide_eq_true hrun
  obtain ⟨e, he, hproblem⟩ : ∃ e, sc.groupAliases g = .error e ∧
      e.problem = .unexpectedAlias (some "@(".toList) := by
    cases hresult : sc.groupAliases g with
    | ok as => simp [hresult, Except.mapError] at herror
    | error e => exact ⟨e, rfl, by simpa [hresult, Except.mapError] using herror⟩
  refine ⟨sc, i, g, e, hsource, hi, hg, ?_, he, hproblem⟩
  generalize g.filter isSignificant = us at hkinds hword ht ⊢
  simp only [List.map_eq_cons_iff, List.map_eq_nil_iff] at hkinds
  obtain ⟨o, _, rfl, ho, word, _, rfl, -, paren, _, rfl, hparen, at', _, rfl, hat, t, _, rfl, -,
    p, _, rfl, hp, q, _, rfl, hq, c, _, rfl, hc, rfl⟩ := hkinds
  exact .array ho hword hparen hat (.names (.last ht)) hp hq hc

end ScriptModule.Script
