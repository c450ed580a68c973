/-
  ScriptModule/Proofs/LineEnds.lean
  =================================
  **Remarks where lines end.**  A line may end between statements, behind the head of a
  definition and among the members of an enumeration.  With other remarks there, a script
  has the same statements.
-/
import ScriptModule.Proofs.DirectivePlace
import ScriptModule.Proofs.Remarks

namespace ScriptModule

/-- What a statement says, apart from its place and the source it was read from. -/
def Statement.said (st : Statement) : Content × Option Text := (st.content, st.filename)

namespace Script

open Grammar

/-! ### Where lines end -/

/-- The tokens behind the head of a definition: its name and what stands behind a colon.
    A class with base types has no such place, as these go to the end of the line. -/
def behindHead (k : TokenKind) (ts rest : List Token) : List Token :=
  if nextIs .colon ts.tail then
    if k = .classWord then rest else ts.drop 3
  else ts.tail

/-- Whether a line may end in front of the tokens `back` inside a declaration: behind the
    head of a definition, or behind the last token of an assignment that counts. -/
def endsInside (sc : Script) (back ts rest : List Token) : Bool :=
  decide (rest <:+ back ∧ back <:+ ts) &&
    match sc.attributes ts with
    | .ok (_, t :: r) =>
      if t.kind = .variable then
        (back.take (back.length - rest.length)).all fun u => !isSignificant u
      else decide (back <:+ behindHead t.kind r rest)
    | _ => false

/-- Whether a line may end in front of the tokens `back`, behind a statement or inside one. -/
def lineEnds (sc : Script) (back ts : List Token) : Bool :=
  match ts with
  | [] => back.isEmpty
  | t :: r =>
    if back = t :: r then true
    else if isSeparator t || t.isRequirement then sc.lineEnds back r
    else if t.kind = .usingWord then
      match _h : sc.usingDirective t r with
      | .error _ => false
      | .ok p => sc.lineEnds back p.rest
    else
      match _h : sc.declaration t r with
      | .error _ => false
      | .ok p => sc.endsInside back (t :: r) p.rest || sc.lineEnds back p.rest
termination_by ts.length
decreasing_by
  · simp
  · have := usingDirective_length _h; simp only [List.length_cons]; omega
  · have := declaration_length _h; simp only [List.length_cons]; omega

variable {sc : Script} {back ts rest r : List Token} {t : Token}

theorem lineEnds_separator (h : sc.lineEnds back (t :: r) = true) (hback : back ≠ t :: r)
    (ht : (isSeparator t || t.isRequirement) = true) : sc.lineEnds back r = true := by
  rwa [lineEnds, if_neg hback, if_pos ht] at h

theorem lineEnds_importing (h : sc.lineEnds back (t :: r) = true) (hback : back ≠ t :: r)
    (ht : t.kind = .usingWord) {i : Import} {last : Token} (himport : Importing sc r i last rest) :
    sc.lineEnds back rest = true := by
  have hparse : sc.usingDirective t r = .ok (sc.parsed (.importing i) t last rest) :=
    usingDirective_iff.mpr ⟨i, himport, rfl⟩
  have hno : (isSeparator t || t.isRequirement) = false := by
    simp [isSeparator, Token.isRemark, Token.isRequirement, ht]
  rw [lineEnds, if_neg hback, hno, if_neg Bool.false_ne_true, if_pos ht] at h
  split at h
  · cases h
  · next p hp =>
    cases hp.symm.trans hparse
    exact h

theorem lineEnds_declaration (h : sc.lineEnds back (t :: r) = true) (hback : back ≠ t :: r)
    {content : Content} {last : Token} (hdeclaration : Declaration sc (t :: r) content last rest) :
    sc.endsInside back (t :: r) rest = true ∨ sc.lineEnds back rest = true := by
  have hparse : sc.declaration t r = .ok (sc.parsed content t last rest) :=
    declaration_iff.mpr ⟨content, hdeclaration, rfl⟩
  have hkind := hdeclaration.head_kind
  have hno : (isSeparator t || t.isRequirement) = false := by
    rcases hkind with h | h | h | h | h <;>
      simp [h, isSeparator, Token.isRemark, Token.isRequirement]
  have husing : t.kind ≠ .usingWord := by
    rcases hkind with h | h | h | h | h <;> simp [h]
  rw [lineEnds, if_neg hback, hno, if_neg Bool.false_ne_true, if_neg husing] at h
  split at h
  · cases h
  · next p hp =>
    cases hp.symm.trans hparse
    exact (Bool.or_eq_true _ _).mp h

theorem endsInside_suffix (h : sc.endsInside back ts rest = true) :
    rest <:+ back ∧ back <:+ ts := by
  rw [endsInside, Bool.and_eq_true] at h
  exact of_decide_eq_true h.1

theorem lineEnds_suffix (h : sc.lineEnds back ts = true) : back <:+ ts := by
  fun_induction lineEnds sc back ts with
  | case1 =>
    obtain rfl := List.isEmpty_iff.mp h
    exact List.suffix_refl _
  | case2 t r heq => exact heq ▸ List.suffix_refl _
  | case3 t r _ _ ih => exact (ih h).trans (List.suffix_cons t r)
  | case4 => cases h
  | case5 t r _ _ _ p hparse ih =>
    exact ((ih h).trans (usingDirective_rest hparse)).trans (List.suffix_cons t r)
  | case6 => cases h
  | case7 t r _ _ _ p hparse ih =>
    rcases (Bool.or_eq_true _ _).mp h with h | h
    · exact (endsInside_suffix h).2
    · obtain ⟨content, hdeclaration, -⟩ := declaration_iff.mp hparse
      obtain ⟨tail, hextent, -⟩ := hdeclaration.extent
      exact ((ih h).trans (List.suffix_append (p.last :: tail) _)).trans hextent

theorem endsInside_head (h : sc.endsInside back ts rest = true) {as : List Text}
    (hattributes : Attributes sc ts as (t :: r)) (ht : t.kind ≠ .variable) :
    back <:+ behindHead t.kind r rest := by
  rw [endsInside, attributes_iff.mpr hattributes, Bool.and_eq_true] at h
  exact of_decide_eq_true ((if_neg ht).symm.trans h.2)

/-- In front of `back`, inside an assignment, stands its last token that counts. -/
theorem endsInside_assignment (h : sc.endsInside back ts rest = true) {as : List Text}
    (hattributes : Attributes sc ts as (t :: r)) (ht : t.kind = .variable) {last : Token}
    {tail : List Token} (hlast : isSignificant last = true) (hts : last :: (tail ++ rest) <:+ ts) :
    back <:+ tail ++ rest := by
  obtain ⟨hrest, hback⟩ := endsInside_suffix h
  rw [endsInside, attributes_iff.mpr hattributes, Bool.and_eq_true] at h
  have hidle := (if_pos ht).symm.trans h.2
  obtain ⟨front, rfl⟩ := hrest
  rw [List.length_append, Nat.add_sub_cancel, List.take_left, List.all_eq_true] at hidle
  have hno : last ∉ front := fun hmem => by simpa [hlast] using hidle last hmem
  rcases List.suffix_or_suffix_of_suffix hts hback with ⟨w, hw⟩ | hshort
  · rw [show w ++ last :: (tail ++ rest) = (w ++ last :: tail) ++ rest by simp] at hw
    exact absurd (by rw [← List.append_cancel_right hw]; simp) hno
  · rcases List.suffix_cons_iff.mp hshort with heq | hshort
    · have hfront : front = last :: tail := (List.append_left_inj rest).mp heq
      exact absurd (by rw [hfront]; simp) hno
    · exact hshort

end Script

open Script Grammar

/-! ### Declarations -/

section

variable {sc whole : Script} {f : Token → Token} {back ts us rest r1 r2 r3 : List Token}
  {t last : Token} {n : Text}

theorem behindHead_underlying {o : Option Text} (hname : Name r1 n r2)
    (hunder : Underlying r2 o r3) (rest : List Token) : behindHead .enumWord r1 rest = r3 := by
  obtain ⟨-⟩ := hname
  rcases hunder with hnext | ⟨hcolon, hname⟩
  · exact if_neg (by simp [hnext])
  · obtain ⟨-⟩ := hname
    exact if_pos (by simp [nextIs, hcolon])

theorem behindHead_functionName (hname : FunctionName r1 n r2) (rest : List Token) :
    behindHead .functionWord r1 rest = r2 := by
  rcases hname with ⟨hname, hnext⟩ | ⟨hscope, hcolon, hname⟩
  · obtain ⟨-⟩ := hname
    exact if_neg (by simp [hnext])
  · obtain ⟨-⟩ := hscope
    obtain ⟨-⟩ := hname
    exact if_pos (by simp [nextIs, hcolon])

theorem behindHead_class (hname : Name r1 n r2) (rest : List Token) :
    behindHead .classWord r1 rest = if nextIs .colon r2 then rest else r2 := by
  obtain ⟨-⟩ := hname
  rfl

/-- The list of base types ends in front of the body or the end of the line. -/
theorem baseTypesFrom_stop {depth : Int} {base : Text} {bs : List Text}
    (h : baseTypesFrom depth base ts = (bs, t :: rest)) :
    t.kind = .leftBrace ∨ t.kind = .newline := by
  induction ts generalizing depth base bs with
  | nil => cases h
  | cons u ts ih =>
    rw [baseTypesFrom] at h
    split at h
    · next hstop =>
      cases h
      simp only [Bool.and_eq_true, Bool.or_eq_true, beq_iff_eq] at hstop
      exact hstop.2
    · split at h
      · have hmore : baseTypesFrom 0 [] ts = ((baseTypesFrom 0 [] ts).1, t :: rest) :=
          Prod.ext rfl (Prod.mk.inj h).2
        exact ih hmore
      · exact ih h

/-- Whether a line ends in front of the tokens `back` with a declaration or inside it. -/
def EndsWith (sc : Script) (back ts rest : List Token) : Prop :=
  back <:+ rest ∨ sc.endsInside back ts rest = true

theorem EndsWith.head (h : EndsWith sc back ts rest) {as : List Text}
    (hattributes : Attributes sc ts as (t :: r1)) (ht : t.kind ≠ .variable)
    (hrest : rest <:+ behindHead t.kind r1 rest) : back <:+ behindHead t.kind r1 rest := by
  rcases h with h | h
  · exact h.trans hrest
  · exact endsInside_head h hattributes ht

variable (hf : KeepsSaid f)

include hf

/-- Attributes are read up to a keyword or a variable in front of the line end. -/
theorem Retouched.keyword (h : Retouched sc whole f back ts us) {as : List Text} {k : TokenKind}
    (hattributes : Attributes sc ts as (t :: r1)) (hkind : t.kind = k) (hnewline : k ≠ .newline)
    (hcomment : k ≠ .comment) (hback : back <:+ r1) :
    ∃ us', Attributes whole us as (f t :: us') ∧ (f t).kind = k ∧
      Retouched sc whole f back r1 us' := by
  have ht : t.isRemark = false := by simp [Token.isRemark, hkind, hcomment]
  obtain ⟨us', hattributes', hus⟩ := h.attributes hf hattributes ht hback
  obtain ⟨us', rfl, hkind', hr1⟩ := hus.head_kind hf hkind hnewline hcomment
  exact ⟨us', hattributes', hkind', hr1⟩

theorem Retouched.enumeration (h : Retouched sc whole f back ts us) {attrs : List Text}
    {o : Option Text} {ms : List EnumMember} {inner : List Token} {brace : Token}
    (hattributes : Attributes sc ts attrs (t :: r1)) (hkind : t.kind = .enumWord)
    (hname : Name r1 n r2) (hunder : Underlying r2 o r3)
    (hblank : Script.skipBlank r3 = brace :: inner)
    (hbrace : brace.kind = .leftBrace) (hmembers : Members sc inner ms last rest)
    (hends : EndsWith sc back ts rest) :
    ∃ rest', Declaration whole us (.enumeration ⟨n, ms, attrs, o⟩) (f last) rest' ∧
      Retouched sc whole f back rest rest' := by
  have hbody : rest <:+ r3 := by
    have hskip := cons_suffix_of_dropWhile hblank
    exact (((List.suffix_cons last rest).trans hmembers.suffix).trans
      (List.suffix_cons brace inner)).trans hskip
  have hbehind := hends.head hattributes (by simp [hkind])
    (by rw [hkind, behindHead_underlying hname hunder]; exact hbody)
  rw [hkind, behindHead_underlying hname hunder] at hbehind
  have hr1 := hbehind.trans (hunder.suffix.trans hname.suffix)
  obtain ⟨us1, hattributes', hkind', h1⟩ :=
    h.keyword hf hattributes hkind (by decide) (by decide) hr1
  obtain ⟨us2, hname', h2⟩ := h1.name hf hname
  obtain ⟨us3, hunder', h3⟩ := h2.underlying hf hunder
  have hskip := h3.skipBlank hf
  rw [hblank] at hskip
  obtain ⟨inner', hblank', hbrace', hinner⟩ := hskip.head_kind hf hbrace (by decide) (by decide)
  obtain ⟨rest', hmembers', hrest⟩ := hinner.members hf hmembers
  exact ⟨rest', .enumeration hattributes' hkind' hname' hunder' hblank' hbrace'
    hmembers', hrest⟩

theorem Retouched.classType (h : Retouched sc whole f back ts us) {attrs bs : List Text}
    (hattributes : Attributes sc ts attrs (t :: r1)) (hkind : t.kind = .classWord)
    (hname : Name r1 n r2) (hbases : BaseTypes r2 bs r3) (hbody : Body r3 last rest)
    (hends : EndsWith sc back ts rest) :
    ∃ rest', Declaration whole us (.classType ⟨n, bs⟩) (f last) rest' ∧
      Retouched sc whole f back rest rest' := by
  have hrest : rest <:+ r3 := (List.suffix_cons last rest).trans hbody.suffix
  have hhead := @EndsWith.head _ _ _ _ _ _ hends _ hattributes (by simp [hkind])
  rw [hkind, behindHead_class hname] at hhead
  -- a line that ends behind the name has no base types
  obtain ⟨us1, us2, us3, hattributes', hname', hbases', h3⟩ : ∃ us1 us2 us3,
      Attributes whole us attrs (f t :: us1) ∧ Name us1 n us2 ∧ BaseTypes us2 bs us3 ∧
        Retouched sc whole f back r3 us3 := by
    cases hbases with
    | none hnext =>
      rw [hnext, if_neg Bool.false_ne_true] at hhead
      have hr1 := (hhead hrest).trans hname.suffix
      obtain ⟨us1, hattributes', -, h1⟩ :=
        h.keyword hf hattributes hkind (by decide) (by decide) hr1
      obtain ⟨us2, hname', h2⟩ := h1.name hf hname
      have hnext' := (h2.nextIs hf (by decide) (by decide)).trans hnext
      exact ⟨us1, us2, us2, hattributes', hname', .none hnext', h2⟩
    | @some c r2 _ _ hcolon heq hproper =>
      have hnext : Script.nextIs .colon (c :: r2) = true := by simp [Script.nextIs, hcolon]
      rw [if_pos hnext] at hhead
      obtain ⟨u, r, rfl⟩ := List.exists_cons_of_ne_nil (hbody.suffix.ne_nil (List.cons_ne_nil _ _))
      have hu : u.isRemark = false := by
        rcases baseTypesFrom_stop heq with hstop | hstop <;> simp [Token.isRemark, hstop]
      have hr : back <:+ r := by
        refine (hhead (List.suffix_refl _)).trans ?_
        rcases List.suffix_cons_iff.mp hbody.suffix with heq | hlater
        · exact (List.cons.inj heq).2 ▸ List.suffix_refl _
        · exact (List.suffix_cons last rest).trans hlater
      have hbases : BaseTypes (c :: r2) bs (u :: r) := .some hcolon heq hproper
      have hr1 := (hr.trans (List.suffix_cons u r)).trans (hbases.suffix.trans hname.suffix)
      obtain ⟨us1, hattributes', -, h1⟩ :=
        h.keyword hf hattributes hkind (by decide) (by decide) hr1
      obtain ⟨us2, hname', h2⟩ := h1.name hf hname
      obtain ⟨us3, hbases', h3⟩ := h2.baseTypes hf hbases hu hr
      exact ⟨us1, us2, us3, hattributes', hname', hbases', h3⟩
  obtain ⟨rest', hbody', hrest'⟩ := h3.body hf hbody
  exact ⟨rest', .classType hattributes' ((hf.kind t).trans hkind) hname' hbases' hbody', hrest'⟩

theorem Retouched.function (h : Retouched sc whole f back ts us)
    (hattributes : Attributes sc ts [] (t :: r1)) (hkind : t.kind = .functionWord)
    (hname : FunctionName r1 n r2) (hparameters : Parameters r2 r3) (hbody : Body r3 last rest)
    (hends : EndsWith sc back ts rest) :
    ∃ rest', Declaration whole us (.function n) (f last) rest' ∧
      Retouched sc whole f back rest rest' := by
  have hrest : rest <:+ r2 :=
    ((List.suffix_cons last rest).trans hbody.suffix).trans hparameters.suffix
  have hbehind := hends.head hattributes (by simp [hkind])
    (by rw [hkind, behindHead_functionName hname]; exact hrest)
  rw [hkind, behindHead_functionName hname] at hbehind
  have hr1 := hbehind.trans hname.suffix
  obtain ⟨us1, hattributes', hkind', h1⟩ :=
    h.keyword hf hattributes hkind (by decide) (by decide) hr1
  obtain ⟨us2, hname', h2⟩ := h1.functionName hf hname
  obtain ⟨us3, hparameters', h3⟩ := h2.parameters hf hparameters
  obtain ⟨rest', hbody', hrest'⟩ := h3.body hf hbody
  exact ⟨rest', .function hattributes' hkind' hname' hparameters' hbody', hrest'⟩

theorem Retouched.assignment (h : Retouched sc whole f back ts us) {attrs : List Text}
    {r es more : List Token} {e start : Token} (hattributes : Attributes sc ts attrs (t :: e :: r))
    (hkind : t.kind = .variable) (hequals : e.kind = .equals)
    (hexpression : Expression none (Script.skipBlank r) es rest)
    (hsignificant : es.filter isSignificant = start :: more)
    (hends : EndsWith sc back ts rest) :
    ∃ last' rest', Declaration whole us (.assignment {
        name := variableName t.text
        target := t.text
        expression := sc.slice start (more.getLast?.getD start)
        typeConstraint := if attrs.isEmpty then none else some attrs.flatten }) last' rest' ∧
      Retouched sc whole f back rest rest' := by
  have hlast := @List.getLast?_cons _ more start
  generalize more.getLast?.getD start = last at hlast ⊢
  rw [← hsignificant] at hlast
  have hmem := List.mem_of_getLast? hlast
  obtain ⟨front, tail, hreach, hsub, -⟩ := hexpression.reach hlast
  rw [List.mem_filter] at hmem
  have hbehind : back <:+ tail ++ rest := by
    rcases hends with hends | hends
    · exact hends.trans (List.suffix_append _ _)
    · refine endsInside_assignment hends hattributes hkind hmem.2 ?_
      have hblank : last :: (tail ++ rest) <:+ Script.skipBlank r := hreach ▸ List.suffix_append _ _
      exact ((hblank.trans (skipBlank_suffix r)).trans (List.suffix_cons e r)).trans
        ((List.suffix_cons t _).trans hattributes.suffix)
  have hlater : back <:+ Script.skipBlank r := by
    rw [hreach]
    exact (hbehind.trans (List.suffix_cons last _)).trans (List.suffix_append _ _)
  have hr := hlater.trans (skipBlank_suffix r)
  obtain ⟨us1, hattributes', hkind', h1⟩ :=
    h.keyword hf hattributes hkind (by decide) (by decide) (hr.trans (List.suffix_cons e r))
  obtain ⟨us2, rfl, hequals', h2⟩ := h1.head_kind hf hequals (by decide) (by decide)
  have h3 := h2.skipBlank hf
  have hremark : last.isRemark = false := Bool.eq_false_iff.mpr fun hremark => by
    simpa [isSignificant, remark_kind hremark] using hmem.2
  -- what counts of the expression stands in front of the line end
  have hagree := h3.agree_front hreach hremark hbehind
  obtain ⟨es', rest', hexpression', hsame, hrest⟩ := h3.expression hf hexpression
  rw [hsignificant, List.map_cons] at hsame
  have hstart : start ∈ front ++ [last] := hsub (by rw [hsignificant]; exact List.mem_cons_self)
  have hplaced : (more.map f).getLast?.getD (f start) = f last := by
    rw [hsignificant, List.getLast?_cons] at hlast
    rw [getLast?_map_getD, Option.some.inj hlast]
  have hdeclaration := Declaration.assignment hattributes' hkind' hequals' hexpression' hsame
  rw [hplaced, hf.text, hagree start hstart last (by simp)] at hdeclaration
  exact ⟨_, rest', hdeclaration, hrest⟩

/-- With other remarks where a line may end, a declaration is the same. -/
theorem Grammar.Declaration.retouched {content : Content} (h : Declaration sc ts content last rest)
    (hts : Retouched sc whole f back ts us) (hends : EndsWith sc back ts rest) :
    ∃ last' rest', Declaration whole us content last' rest' ∧
      Retouched sc whole f back rest rest' := by
  cases h with
  | enumeration hattributes hkind hname hunder hblank hbrace hmembers =>
    exact ⟨_, hts.enumeration hf hattributes hkind hname hunder hblank hbrace hmembers hends⟩
  | classType hattributes hkind hname hbases hbody =>
    exact ⟨_, hts.classType hf hattributes hkind hname hbases hbody hends⟩
  | function hattributes hkind hname hparameters hbody =>
    exact ⟨_, hts.function hf hattributes hkind hname hparameters hbody hends⟩
  | assignment hattributes hkind hequals hexpression hsignificant =>
    exact hts.assignment hf hattributes hkind hequals hexpression hsignificant hends

/-! ### Statements -/

omit hf in
/-- The first token has one in its place, or it is a remark at the end of the line. -/
theorem Retouched.cons (h : Retouched sc whole f back (t :: ts) us) (hback : back ≠ t :: ts) :
    (∃ us', us = f t :: us' ∧ Retouched sc whole f back ts us') ∨
      (t.isRemark = true ∧ Retouched sc whole f back ts us) := by
  rcases h.cons_cases with hplaced | ⟨xs, ys, b, hall, rfl, hxs, hys, hb, hcut, hagree⟩
  · exact .inl hplaced
  · cases xs with
    | cons x xs =>
      obtain ⟨rfl, rfl⟩ := List.cons.inj hall
      rw [List.forall_mem_cons] at hxs
      have hnone : Agree sc whole f [] := fun t ht => by cases ht
      exact .inr ⟨hxs.1, .intro [] xs ys b hxs.2 hys hb hcut hnone hagree⟩
    | nil =>
      have hall : t :: ts = b := hall
      rcases hcut with rfl | rfl
      · exact absurd hall.symm hback
      · cases hall

omit hf in
/-- In front of the tokens behind the line end there are other remarks only. -/
theorem Retouched.line (h : Retouched sc whole f back ts us) (hback : ts <:+ back) :
    ∃ ys us', us = ys ++ us' ∧ (∀ y ∈ ys, isSeparator y = true) ∧
      Retouched sc whole f [] ts us' := by
  obtain ⟨a, xs, ys, b, hxs, hys, hb, hcut, ha, hagree⟩ := h
  rcases hcut with rfl | rfl
  · have hlength := hback.length_le
    rw [List.length_append, List.length_append] at hlength
    obtain rfl : a = [] := List.eq_nil_of_length_eq_zero (by omega)
    obtain rfl : xs = [] := List.eq_nil_of_length_eq_zero (by omega)
    exact ⟨ys, b.map f, rfl, fun y hy => by simp [isSeparator, hys y hy], hagree.retouched⟩
  · exact ⟨[], _, rfl, by simp, .intro a xs ys [] hxs hys hb (.inl rfl) ha hagree⟩

omit hf in
/-- Where a line ends in front of all that is left, the rest is read by itself. -/
theorem Retouched.apart (h : Retouched sc whole f back ts us)
    (hends : back = [] ∨ sc.lineEnds back ts = true) (hts : ts ≠ []) :
    ∃ ys us' back', us = ys ++ us' ∧ (∀ y ∈ ys, isSeparator y = true) ∧
      Retouched sc whole f back' ts us' ∧ (back' = [] ∨ sc.lineEnds back' ts = true) ∧
      back' ≠ ts := by
  by_cases hback : back = ts
  · obtain ⟨ys, us', rfl, hys, hrest⟩ := h.line (hback ▸ List.suffix_refl _)
    exact ⟨ys, us', [], rfl, hys, hrest, .inl rfl, hts.symm⟩
  · exact ⟨[], us, back, rfl, by simp, h, hends, hback⟩

omit hf in
theorem Retouched.nil (h : Retouched sc whole f back [] us) : ∀ u ∈ us, isSeparator u = true := by
  generalize hall : [] = all at h
  obtain ⟨a, xs, ys, b, hxs, hys, hb, hcut, ha, hagree⟩ := h
  have hnil := hall.symm
  simp only [List.append_eq_nil_iff] at hnil
  obtain ⟨rfl, rfl, rfl⟩ := hnil
  intro u hu
  have hmem : u ∈ ys := by simpa using hu
  simp [isSeparator, hys u hmem]

/-- With other remarks where a line may end, the statements are the same. -/
theorem Grammar.Statements.retouched (hfile : whole.filename = sc.filename) {sts : List Statement}
    (h : Statements sc ts sts) (hts : Retouched sc whole f back ts us)
    (hends : back = [] ∨ sc.lineEnds back ts = true) :
    ∃ sts', Statements whole us sts' ∧ sts'.map Statement.said = sts.map Statement.said := by
  have hstated : ∀ {content : Content} {t u last last' : Token},
      (stated whole content u last').said = (stated sc content t last).said := by
    simp [stated, Statement.said, hfile]
  induction h generalizing back us with
  | nil =>
    refine ⟨[], ?_, rfl⟩
    rw [← List.append_nil us]
    exact (statements_separators hts.nil).mpr .nil
  | separator ht _ ih =>
    obtain ⟨ys, us, back, rfl, hys, hts, hends, hback⟩ := hts.apart hends (List.cons_ne_nil _ _)
    simp only [statements_separators hys]
    have hmore := hends.imp_right fun h => lineEnds_separator h hback (by simp [ht])
    rcases hts.cons hback with ⟨us', rfl, hrest⟩ | ⟨-, hrest⟩
    · obtain ⟨sts', hsts', hsame⟩ := ih hrest hmore
      refine ⟨sts', .separator ?_ hsts', hsame⟩
      rw [isSeparator, hf.kind, hf.isRemark]
      exact ht
    · exact ih hrest hmore
  | requirement hrequirement hparse _ ih =>
    obtain ⟨ys, us, back, rfl, hys, hts, hends, hback⟩ := hts.apart hends (List.cons_ne_nil _ _)
    simp only [statements_separators hys]
    have hmore := hends.imp_right fun h => lineEnds_separator h hback (by simp [hrequirement])
    rcases hts.cons hback with ⟨us', rfl, hrest⟩ | ⟨hremark, -⟩
    · obtain ⟨sts', hsts', hsame⟩ := ih hrest hmore
      obtain ⟨st', hparse', hst⟩ := requirement_unplaced hfile (f _) (hf.text _) hparse
      have hsaid : st'.said = _ := congrArg (fun s => (s.content, s.filename)) hst
      refine ⟨_, .requirement ((hf.isRequirement _).trans hrequirement) hparse' hsts', ?_⟩
      rw [List.map_cons, List.map_cons, hsame, hsaid]
      rfl
    · simp [Token.isRemark, hrequirement] at hremark
  | importing husing himport _ ih =>
    obtain ⟨ys, us, back, rfl, hys, hts, hends, hback⟩ := hts.apart hends (List.cons_ne_nil _ _)
    simp only [statements_separators hys]
    have hmore := hends.imp_right fun h => lineEnds_importing h hback husing himport
    rcases hts.cons hback with ⟨us', rfl, hus⟩ | ⟨hremark, -⟩
    · obtain ⟨rest', himport', hrest⟩ := hus.importing hf himport
      obtain ⟨sts', hsts', hsame⟩ := ih hrest hmore
      refine ⟨_, .importing ((hf.kind _).trans husing) himport' hsts', ?_⟩
      rw [List.map_cons, List.map_cons, hsame, hstated]
    · simp [remark_kind hremark] at husing
  | @declaration t last ts rest content sts hdeclaration _ ih =>
    obtain ⟨ys, us, back, rfl, hys, hts, hends, hback⟩ := hts.apart hends (List.cons_ne_nil _ _)
    simp only [statements_separators hys]
    rcases hts.cons hback with ⟨us', rfl, -⟩ | ⟨hremark, -⟩
    · have hplace : back = [] ∨ sc.lineEnds back rest = true ∨
          sc.endsInside back (t :: ts) rest = true :=
        hends.imp_right fun h => (lineEnds_declaration h hback hdeclaration).symm
      have hwith : EndsWith sc back (t :: ts) rest := by
        rcases hplace with rfl | hlater | hinside
        · exact .inl List.nil_suffix
        · exact .inl (lineEnds_suffix hlater)
        · exact .inr hinside
      obtain ⟨last', rest', hdeclaration', hrest⟩ := hdeclaration.retouched hf hts hwith
      obtain ⟨sts', hsts', hsame⟩ : ∃ sts', Statements whole rest' sts' ∧
          sts'.map Statement.said = sts.map Statement.said := by
        rcases hplace with hnil | hlater | hinside
        · exact ih hrest (.inl hnil)
        · exact ih hrest (.inr hlater)
        · obtain ⟨ys', us'', rfl, hys', hus⟩ := hrest.line (endsInside_suffix hinside).1
          simp only [statements_separators hys']
          exact ih hus (.inl rfl)
      refine ⟨_, .declaration hdeclaration' hsts', ?_⟩
      rw [List.map_cons, List.map_cons, hsame, hstated]
    · rcases hdeclaration.head_kind with h | h | h | h | h <;> simp [remark_kind hremark] at h

end

end ScriptModule
