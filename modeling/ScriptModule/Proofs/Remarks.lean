/-
  ScriptModule/Proofs/Remarks.lean
  ================================
  **Remarks at the end of a line.**  Tokens that say the same, with other remarks in front of
  one line end or of the end of the file, are read alike: a parser stops in front of a remark
  where it stops in front of a line end, and passes it over where it passes over the line
  end.  Only two look at what stands there: pieces of the source that go beyond the line, and
  the base types of a class, which take in all tokens up to the line end.
-/
import ScriptModule.Proofs.Excerpt
import ScriptModule.Proofs.OpenEnd

namespace ScriptModule

open Script Grammar

/-! ### Replaced tokens -/

/-- Whether tokens are replaced by ones that say the same. -/
def KeepsSaid (f : Token → Token) : Prop := ∀ t, (f t).said = t.said

namespace KeepsSaid

variable {f : Token → Token} (hf : KeepsSaid f)

include hf

theorem kind (t : Token) : (f t).kind = t.kind := congrArg Prod.fst (hf t)

theorem text (t : Token) : (f t).text = t.text := congrArg (fun s => s.2.1) (hf t)

theorem value (t : Token) : (f t).value = t.value := congrArg (fun s => s.2.2) (hf t)

theorem isRequirement (t : Token) : (f t).isRequirement = t.isRequirement := by
  rw [Token.isRequirement, Token.isRequirement, hf.kind, hf.text]

theorem isRemark (t : Token) : (f t).isRemark = t.isRemark := by
  rw [Token.isRemark, Token.isRemark, hf.kind, hf.isRequirement]

theorem isSignificant (t : Token) : isSignificant (f t) = isSignificant t := by
  rw [Script.isSignificant, Script.isSignificant, hf.kind]

theorem lastKind (before : Option TokenKind) (t : Token) :
    lastKind before (f t) = lastKind before t := by
  rw [ScriptModule.lastKind, ScriptModule.lastKind, hf.kind]

theorem endsExpression (before : Option TokenKind) (t : Token) :
    endsExpression before (f t) = endsExpression before t := by
  rw [Grammar.endsExpression, Grammar.endsExpression, hf.kind]

theorem groupEnd?_map (depth : Nat) (ts : List Token) :
    groupEnd? depth (ts.map f) = (groupEnd? depth ts).map (Prod.map f (List.map f)) := by
  fun_induction groupEnd? depth ts with
  | case1 => rfl
  | case2 depth t ts hopener ih =>
    rw [List.map_cons, groupEnd?.eq_def]
    simp only [hf.kind]
    rw [if_pos hopener, ih]
  | case3 t ts hopener hcloser =>
    rw [List.map_cons, groupEnd?, hf.kind, if_neg hopener, if_pos hcloser]
    rfl
  | case4 t ts hopener hcloser d ih =>
    rw [List.map_cons, groupEnd?, hf.kind, if_neg hopener, if_pos hcloser]
    exact ih
  | case5 depth t ts hopener hcloser ih =>
    rw [List.map_cons, groupEnd?.eq_def]
    simp only [hf.kind]
    rw [if_neg hopener, if_neg hcloser, ih]

theorem expression_map {before : Option TokenKind} {ts es rest : List Token}
    (h : Expression before ts es rest) :
    Expression before (ts.map f) (es.map f) (rest.map f) := by
  induction h with
  | atEnd => exact .atEnd
  | stop hends => exact .stop ((hf.endsExpression _ _).trans hends)
  | @group before t close ts mid es rest hends hopener hend _ ih =>
    refine .group ((hf.endsExpression _ _).trans hends) (by rw [hf.kind]; exact hopener)
      (by rw [hf.groupEnd?_map, hend]; rfl) ?_
    rw [hf.kind]
    exact ih
  | token hends hopener _ ih =>
    refine .token ((hf.endsExpression _ _).trans hends) (by rw [hf.kind]; exact hopener) ?_
    rw [hf.lastKind]
    exact ih

end KeepsSaid

/-! ### Changed remarks -/

section

variable (sc whole : Script) (f : Token → Token) (back : List Token)

/-- Whether the source between tokens is the same between those that replace them. -/
def Agree (ts : List Token) : Prop :=
  ∀ t ∈ ts, ∀ u ∈ ts, whole.slice (f t) (f u) = sc.slice t u

/-- Tokens with others in their place, and with other remarks in front of the line end that
    starts `back`, or at the end of the file. -/
inductive Retouched : List Token → List Token → Prop
  | intro (a xs ys b : List Token) : (∀ x ∈ xs, x.isRemark = true) →
      (∀ y ∈ ys, y.isRemark = true) → (∀ t ∈ b.head?, t.kind = .newline) →
      (b = back ∨ b = []) → Agree sc whole f a → Agree sc whole f b →
      Retouched (a ++ (xs ++ b)) (a.map f ++ (ys ++ b.map f))

end

variable {sc whole : Script} {f : Token → Token} {ts us rest back : List Token} {t : Token}

theorem Agree.of_subset (h : Agree sc whole f ts) (hsub : us ⊆ ts) : Agree sc whole f us :=
  fun t ht u hu => h t (hsub ht) u (hsub hu)

theorem Agree.retouched (h : Agree sc whole f ts) : Retouched sc whole f back ts (ts.map f) := by
  have hall : Retouched sc whole f back _ _ :=
    .intro ts [] [] [] (by simp) (by simp) (by simp) (.inr rfl) h (fun t ht => by cases ht)
  simpa using hall

theorem getLast?_map_getD (f : Token → Token) (more : List Token) (first : Token) :
    (more.map f).getLast?.getD (f first) = f (more.getLast?.getD first) := by
  rw [List.getLast?_map]
  cases more.getLast? <;> rfl

theorem nextIs_line {xs b : List Token} (hxs : ∀ x ∈ xs, x.isRemark = true)
    (hb : ∀ t ∈ b.head?, t.kind = .newline) {k : TokenKind} (hnewline : k ≠ .newline)
    (hcomment : k ≠ .comment) : nextIs k (xs ++ b) = false := by
  cases xs with
  | cons x xs =>
    have hkind := remark_kind (hxs x List.mem_cons_self)
    simp [nextIs, hkind, Ne.symm hcomment]
  | nil =>
    cases b with
    | nil => rfl
    | cons t b =>
      have hkind := hb t rfl
      simp [nextIs, hkind, Ne.symm hnewline]

theorem takeWhile_line {xs b : List Token} (hxs : ∀ x ∈ xs, x.isRemark = true)
    (hb : ∀ t ∈ b.head?, t.kind = .newline) {q : Token → Bool}
    (hremark : ∀ t, t.isRemark = true → q t = false)
    (hnewline : ∀ t, t.kind = .newline → q t = false) :
    (xs ++ b).takeWhile q = [] ∧ (xs ++ b).dropWhile q = xs ++ b := by
  cases xs with
  | cons x xs => simp [hremark x (hxs x List.mem_cons_self)]
  | nil =>
    cases b with
    | nil => exact ⟨rfl, rfl⟩
    | cons t b => simp [hnewline t (hb t rfl)]

theorem groupEnd?_remarks {xs : List Token} (hxs : ∀ x ∈ xs, x.isRemark = true) (depth : Nat)
    (b : List Token) : groupEnd? depth (xs ++ b) = groupEnd? depth b := by
  induction xs with
  | nil => rfl
  | cons x xs ih =>
    rw [List.forall_mem_cons] at hxs
    have hkind := remark_kind hxs.1
    rw [List.cons_append, groupEnd?.eq_def]
    simp only [hkind]
    exact ih hxs.2

namespace Retouched

/-- The first token has one in its place, or it stands at the end of the line. -/
theorem cons_cases (h : Retouched sc whole f back (t :: ts) us) :
    (∃ us', us = f t :: us' ∧ Retouched sc whole f back ts us') ∨
      ∃ xs ys b, t :: ts = xs ++ b ∧ us = ys ++ b.map f ∧ (∀ x ∈ xs, x.isRemark = true) ∧
        (∀ y ∈ ys, y.isRemark = true) ∧ (∀ t ∈ b.head?, t.kind = .newline) ∧
        (b = back ∨ b = []) ∧ Agree sc whole f b := by
  generalize hall : t :: ts = all at h
  obtain ⟨a, xs, ys, b, hxs, hys, hb, hcut, ha, hagree⟩ := h
  cases a with
  | nil => exact .inr ⟨xs, ys, b, rfl, rfl, hxs, hys, hb, hcut, hagree⟩
  | cons u a =>
    obtain ⟨rfl, rfl⟩ := List.cons.inj hall
    exact .inl ⟨_, rfl, .intro a xs ys b hxs hys hb hcut
      (ha.of_subset (List.subset_cons_self _ _)) hagree⟩

/-- A token that is no line end and no remark has one in its place. -/
theorem head (h : Retouched sc whole f back (t :: ts) us) (hnewline : t.kind ≠ .newline)
    (hremark : t.isRemark = false) : ∃ us', us = f t :: us' ∧ Retouched sc whole f back ts us' := by
  rcases h.cons_cases with hplaced | ⟨xs, ys, b, hall, -, hxs, -, hb, -⟩
  · exact hplaced
  · cases xs with
    | cons x xs =>
      obtain ⟨rfl, -⟩ := List.cons.inj hall
      rw [hxs t List.mem_cons_self] at hremark
      cases hremark
    | nil => exact absurd (hb t (by rw [← show t :: ts = b from hall]; rfl)) hnewline

theorem dropWhile (h : Retouched sc whole f back ts us) {q : Token → Bool} (hq : ∀ t, q (f t) = q t)
    (hremark : ∀ t, t.isRemark = true → q t = true) :
    Retouched sc whole f back (ts.dropWhile q) (us.dropWhile q) := by
  obtain ⟨a, xs, ys, b, hxs, hys, hb, hcut, ha, hagree⟩ := h
  induction a with
  | nil =>
    have hmap : (b.map f).dropWhile q = (b.dropWhile q).map f := by
      rw [List.dropWhile_map]
      congr 2
      exact funext hq
    change Retouched sc whole f back ((xs ++ b).dropWhile q) ((ys ++ b.map f).dropWhile q)
    rw [List.dropWhile_append_of_pos fun x hx => hremark x (hxs x hx),
      List.dropWhile_append_of_pos fun y hy => hremark y (hys y hy), hmap]
    exact (hagree.of_subset (List.dropWhile_sublist q).subset).retouched
  | cons t a ih =>
    have hmore := ha.of_subset (List.subset_cons_self t a)
    rw [List.map_cons, List.cons_append, List.cons_append, List.dropWhile_cons,
      List.dropWhile_cons, hq]
    split
    · exact ih hmore
    · exact .intro (t :: a) xs ys b hxs hys hb hcut ha hagree

end Retouched

section

variable (hf : KeepsSaid f)

include hf

theorem head_map {b : List Token} (hb : ∀ t ∈ b.head?, t.kind = .newline) :
    ∀ t ∈ (b.map f).head?, t.kind = .newline := by
  cases b with
  | nil => simp
  | cons t b =>
    rintro u ⟨⟩
    exact (hf.kind t).trans (hb t rfl)

namespace Retouched

theorem nextIs (h : Retouched sc whole f back ts us) {k : TokenKind} (hnewline : k ≠ .newline)
    (hcomment : k ≠ .comment) : nextIs k us = nextIs k ts := by
  obtain ⟨a, xs, ys, b, hxs, hys, hb, -, -, -⟩ := h
  cases a with
  | cons u a => simp [Script.nextIs, hf.kind]
  | nil =>
    exact (nextIs_line hys (head_map hf hb) hnewline hcomment).trans
      (nextIs_line hxs hb hnewline hcomment).symm

theorem takeWhile (h : Retouched sc whole f back ts us) {q : Token → Bool} (hq : ∀ t, q (f t) = q t)
    (hremark : ∀ t, t.isRemark = true → q t = false)
    (hnewline : ∀ t, t.kind = .newline → q t = false) :
    us.takeWhile q = (ts.takeWhile q).map f ∧ Agree sc whole f (ts.takeWhile q) ∧
      Retouched sc whole f back (ts.dropWhile q) (us.dropWhile q) := by
  obtain ⟨a, xs, ys, b, hxs, hys, hb, hcut, ha, hagree⟩ := h
  have hline := takeWhile_line hxs hb hremark hnewline
  have hline' := takeWhile_line hys (head_map hf hb) hremark hnewline
  have htake : ∀ c : List Token, (c ++ (xs ++ b)).takeWhile q = c.takeWhile q ∧
      (c.map f ++ (ys ++ b.map f)).takeWhile q = (c.takeWhile q).map f := by
    intro c
    induction c with
    | nil => exact ⟨hline.1, hline'.1⟩
    | cons t c ih =>
      rw [List.map_cons, List.cons_append, List.cons_append, List.takeWhile_cons,
        List.takeWhile_cons, List.takeWhile_cons, hq, ih.1, ih.2]
      split <;> simp
  refine ⟨?_, ?_, ?_⟩
  · rw [(htake a).1, (htake a).2]
  · rw [(htake a).1]
    exact ha.of_subset (List.takeWhile_sublist q).subset
  · induction a with
    | nil =>
      change Retouched sc whole f back ((xs ++ b).dropWhile q) ((ys ++ b.map f).dropWhile q)
      rw [hline.2, hline'.2]
      exact .intro [] xs ys b hxs hys hb hcut ha hagree
    | cons t a ih =>
      have hmore := ha.of_subset (List.subset_cons_self t a)
      rw [List.map_cons, List.cons_append, List.cons_append, List.dropWhile_cons,
        List.dropWhile_cons, hq]
      split
      · exact ih hmore
      · exact .intro (t :: a) xs ys b hxs hys hb hcut ha hagree

theorem groupEnd? (h : Retouched sc whole f back ts us) {depth : Nat}
    (hend : groupEnd? depth ts = some (t, rest)) :
    ∃ rest', groupEnd? depth us = some (f t, rest') ∧ Retouched sc whole f back rest rest' := by
  obtain ⟨a, xs, ys, b, hxs, hys, hb, hcut, ha, hagree⟩ := h
  induction a generalizing depth with
  | nil =>
    change ScriptModule.groupEnd? depth (xs ++ b) = _ at hend
    change ∃ rest', ScriptModule.groupEnd? depth (ys ++ b.map f) = _ ∧ _
    rw [groupEnd?_remarks hxs] at hend
    rw [groupEnd?_remarks hys, hf.groupEnd?_map, hend]
    have hsub := ((List.suffix_cons _ _).trans (groupEnd?_suffix hend)).subset
    exact ⟨_, rfl, (hagree.of_subset hsub).retouched⟩
  | cons u a ih =>
    have hmore := ha.of_subset (List.subset_cons_self u a)
    rw [List.cons_append, ScriptModule.groupEnd?.eq_def] at hend
    rw [List.map_cons, List.cons_append, ScriptModule.groupEnd?.eq_def]
    simp only [hf.kind] at hend ⊢
    split
    · next hopener =>
      rw [if_pos hopener] at hend
      exact ih hmore hend
    · next hopener =>
      rw [if_neg hopener] at hend
      split
      · next hcloser =>
        rw [if_pos hcloser] at hend
        cases depth with
        | zero =>
          cases hend
          exact ⟨_, rfl, .intro a xs ys b hxs hys hb hcut hmore hagree⟩
        | succ d => exact ih hmore hend
      · next hcloser =>
        rw [if_neg hcloser] at hend
        exact ih hmore hend

/-! ### Parts of statements -/

theorem name (h : Retouched sc whole f back ts us) {n : Text} (hname : Name ts n rest) :
    ∃ rest', Name us n rest' ∧ Retouched sc whole f back rest rest' := by
  obtain ⟨hname⟩ := hname
  obtain ⟨us', rfl, hus⟩ := h.head (by rintro hkind; simp [hkind, TokenKind.isName] at hname)
    (Bool.eq_false_iff.mpr fun hremark => by
      simp [remark_kind hremark, TokenKind.isName] at hname)
  refine ⟨us', ?_, hus⟩
  rw [← hf.text]
  exact .intro (by rw [hf.kind]; exact hname)

/-- A token of a kind that is no line end and no comment has one in its place. -/
theorem head_kind (h : Retouched sc whole f back (t :: ts) us) {k : TokenKind} (hkind : t.kind = k)
    (hnewline : k ≠ .newline) (hcomment : k ≠ .comment) :
    ∃ us', us = f t :: us' ∧ (f t).kind = k ∧ Retouched sc whole f back ts us' := by
  obtain ⟨us', rfl, hus⟩ := h.head (by rw [hkind]; exact hnewline)
    (Bool.eq_false_iff.mpr fun hremark => hcomment (hkind.symm.trans (remark_kind hremark)))
  exact ⟨us', rfl, (hf.kind t).trans hkind, hus⟩

theorem underlying (h : Retouched sc whole f back ts us) {n : Option Text}
    (hunder : Underlying ts n rest) :
    ∃ rest', Underlying us n rest' ∧ Retouched sc whole f back rest rest' := by
  cases hunder with
  | none hnext =>
    exact ⟨us, .none ((h.nextIs hf (by decide) (by decide)).trans hnext), h⟩
  | some hcolon hname =>
    obtain ⟨us', rfl, hcolon', hus⟩ := h.head_kind hf hcolon (by decide) (by decide)
    obtain ⟨rest', hname', hrest⟩ := hus.name hf hname
    exact ⟨rest', .some hcolon' hname', hrest⟩

theorem functionName (h : Retouched sc whole f back ts us) {n : Text}
    (hname : FunctionName ts n rest) :
    ∃ rest', FunctionName us n rest' ∧ Retouched sc whole f back rest rest' := by
  rcases hname with ⟨hplain, hnext⟩ | ⟨hscope, hcolon, hname⟩
  · obtain ⟨rest', hplain', hrest⟩ := h.name hf hplain
    exact ⟨rest', .plain hplain' ((hrest.nextIs hf (by decide) (by decide)).trans hnext), hrest⟩
  · obtain ⟨mid, hscope', hmid⟩ := h.name hf hscope
    obtain ⟨mid', rfl, hcolon', hmid'⟩ := hmid.head_kind hf hcolon (by decide) (by decide)
    obtain ⟨rest', hname', hrest⟩ := hmid'.name hf hname
    exact ⟨rest', .scoped hscope' hcolon' hname', hrest⟩

theorem parameters (h : Retouched sc whole f back ts us) (hparameters : Parameters ts rest) :
    ∃ rest', Parameters us rest' ∧ Retouched sc whole f back rest rest' := by
  cases hparameters with
  | none hnext => exact ⟨us, .none ((h.nextIs hf (by decide) (by decide)).trans hnext), h⟩
  | some hparen hend =>
    obtain ⟨us', rfl, hparen', hus⟩ := h.head_kind hf hparen (by decide) (by decide)
    obtain ⟨rest', hend', hrest⟩ := hus.groupEnd? hf hend
    exact ⟨rest', .some hparen' hend', hrest⟩

theorem skipBlank (h : Retouched sc whole f back ts us) :
    Retouched sc whole f back (skipBlank ts) (skipBlank us) :=
  h.dropWhile (fun t => by rw [hf.kind, hf.isRemark]) fun t ht => by simp [ht]

theorem body (h : Retouched sc whole f back ts us) (hbody : Body ts t rest) :
    ∃ rest', Body us (f t) rest' ∧ Retouched sc whole f back rest rest' := by
  obtain ⟨hblank, hbrace, hend⟩ := hbody
  have hskip := h.skipBlank hf
  rw [hblank] at hskip
  obtain ⟨inner, hinner, hbrace', hmid⟩ := hskip.head_kind hf hbrace (by decide) (by decide)
  obtain ⟨rest', hend', hrest⟩ := hmid.groupEnd? hf hend
  exact ⟨rest', .intro hinner hbrace' hend', hrest⟩

theorem value (h : Retouched sc whole f back ts us) {v : Option Text}
    (hvalue : Value sc ts v rest) :
    ∃ rest', Value whole us v rest' ∧ Retouched sc whole f back rest rest' := by
  cases hvalue with
  | none hnext => exact ⟨us, .none ((h.nextIs hf (by decide) (by decide)).trans hnext), h⟩
  | @some e first ts more hequals htake =>
    obtain ⟨us', rfl, hequals', hus⟩ := h.head_kind hf hequals (by decide) (by decide)
    obtain ⟨htake', hagree, hrest⟩ := hus.takeWhile hf (q := isValuePart)
      (fun t => by simp only [isValuePart, isMemberGap, hf.kind])
      (fun t ht => by simp [isValuePart, isMemberGap, remark_kind ht])
      (fun t ht => by simp [isValuePart, isMemberGap, ht])
    rw [htake, List.map_cons] at htake'
    rw [htake] at hagree
    have hlast := List.mem_of_getLast? (@List.getLast?_cons _ more first)
    rw [← hagree first List.mem_cons_self _ hlast]
    rw [← getLast?_map_getD f]
    exact ⟨_, .some hequals' htake', hrest⟩

theorem members (h : Retouched sc whole f back ts us) {ms : List EnumMember}
    (hmembers : Members sc ts ms t rest) :
    ∃ rest', Members whole us ms (f t) rest' ∧ Retouched sc whole f back rest rest' := by
  have hgaps : ∀ {ts us}, Retouched sc whole f back ts us →
      Retouched sc whole f back (ts.dropWhile isMemberGap) (us.dropWhile isMemberGap) :=
    fun h => h.dropWhile (fun t => by simp only [isMemberGap, hf.kind])
      fun t ht => by simp [isMemberGap, remark_kind ht]
  induction hmembers generalizing us with
  | nil hgap hclose =>
    have hskip := hgaps h
    rw [hgap] at hskip
    obtain ⟨rest', hgap', hclose', hrest⟩ := hskip.head_kind hf hclose (by decide) (by decide)
    exact ⟨rest', .nil hgap' hclose', hrest⟩
  | group hgap hopener hend _ ih =>
    have hskip := hgaps h
    rw [hgap] at hskip
    obtain ⟨inner, hgap', hopener', hinner⟩ := hskip.head_kind hf hopener (by decide) (by decide)
    obtain ⟨mid, hend', hmid⟩ := hinner.groupEnd? hf hend
    obtain ⟨rest', hmembers', hrest⟩ := ih hmid
    exact ⟨rest', .group hgap' hopener' hend' hmembers', hrest⟩
  | @cons ts more mid rest t close v ms hgap hname hvalue _ ih =>
    have hskip := hgaps h
    rw [hgap] at hskip
    obtain ⟨more', hgap', hmore⟩ := hskip.head
      (by rintro hkind; simp [hkind, TokenKind.isName] at hname)
      (Bool.eq_false_iff.mpr fun hremark => by
        simp [remark_kind hremark, TokenKind.isName] at hname)
    obtain ⟨mid', hvalue', hmid⟩ := hmore.value hf hvalue
    obtain ⟨rest', hmembers', hrest⟩ := ih hmid
    refine ⟨rest', ?_, hrest⟩
    rw [← hf.text t]
    exact .cons hgap' (by rw [hf.kind]; exact hname) hvalue' hmembers'

/-! ### Expressions -/

omit hf in
theorem filter_remarks {xs : List Token} (hxs : ∀ x ∈ xs, x.isRemark = true) :
    xs.filter isSignificant = [] :=
  List.filter_eq_nil_iff.mpr fun x hx => by simp [Script.isSignificant, remark_kind (hxs x hx)]

theorem expression_line {xs ys b es : List Token} {before : Option TokenKind}
    (hexpression : Expression before (xs ++ b) es rest) (hxs : ∀ x ∈ xs, x.isRemark = true)
    (hys : ∀ y ∈ ys, y.isRemark = true) (hagree : Agree sc whole f b) :
    ∃ es' rest', Expression before (ys ++ b.map f) es' rest' ∧
      es'.filter isSignificant = (es.filter isSignificant).map f ∧
      Retouched sc whole f back rest rest' := by
  obtain ⟨fs, rfl, hfs⟩ := (expression_remarks hxs).mp hexpression
  refine ⟨ys ++ fs.map f, rest.map f, (expression_remarks hys).mpr ⟨_, rfl, hf.expression_map hfs⟩,
    ?_, (hagree.of_subset hfs.suffix.subset).retouched⟩
  rw [List.filter_append, List.filter_append, filter_remarks hxs, filter_remarks hys,
    List.nil_append, List.nil_append, List.filter_map]
  congr 2
  exact funext hf.isSignificant

theorem expression (h : Retouched sc whole f back ts us) {before : Option TokenKind}
    {es : List Token} (hexpression : Expression before ts es rest) :
    ∃ es' rest', Expression before us es' rest' ∧
      es'.filter isSignificant = (es.filter isSignificant).map f ∧
      Retouched sc whole f back rest rest' := by
  have hcons : ∀ (t : Token) {es fs : List Token},
      fs.filter Script.isSignificant = (es.filter Script.isSignificant).map f →
      (f t :: fs).filter Script.isSignificant = ((t :: es).filter Script.isSignificant).map f := by
    intro t es fs hfs
    rw [List.filter_cons, List.filter_cons, hf.isSignificant, hfs]
    split <;> rfl
  induction hexpression generalizing us with
  | @atEnd before =>
    generalize hall : [] = all at h
    obtain ⟨a, xs, ys, b, hxs, hys, hb, hcut, ha, hagree⟩ := h
    have hnil := hall.symm
    simp only [List.append_eq_nil_iff] at hnil
    obtain ⟨rfl, rfl, rfl⟩ := hnil
    exact expression_line hf (show Expression before ([] ++ []) [] [] from .atEnd) hxs hys hagree
  | @stop before t ts hends =>
    rcases h.cons_cases with ⟨us', rfl, hus⟩ | ⟨xs, ys, b, hall, rfl, hxs, hys, -, -, hagree⟩
    · exact ⟨[], _, .stop ((hf.endsExpression _ _).trans hends), rfl, h⟩
    · exact expression_line hf (hall ▸ .stop hends) hxs hys hagree
  | @group before t close ts mid es rest hends hopener hend hmore ih =>
    rcases h.cons_cases with ⟨us', rfl, hus⟩ | ⟨xs, ys, b, hall, rfl, hxs, hys, -, -, hagree⟩
    · obtain ⟨mid', hend', hmid⟩ := hus.groupEnd? hf hend
      obtain ⟨es', rest', hmore', hsame, hrest⟩ := ih hmid
      refine ⟨f t :: f close :: es', rest', .group ((hf.endsExpression _ _).trans hends)
        (by rw [hf.kind]; exact hopener) hend' (by rw [hf.kind]; exact hmore'), ?_, hrest⟩
      exact hcons t (hcons close hsame)
    · exact expression_line hf (hall ▸ .group hends hopener hend hmore) hxs hys hagree
  | @token before t ts es rest hends hopener hmore ih =>
    rcases h.cons_cases with ⟨us', rfl, hus⟩ | ⟨xs, ys, b, hall, rfl, hxs, hys, -, -, hagree⟩
    · obtain ⟨es', rest', hmore', hsame, hrest⟩ := ih hus
      refine ⟨f t :: es', rest', .token ((hf.endsExpression _ _).trans hends)
        (by rw [hf.kind]; exact hopener) (by rw [hf.lastKind]; exact hmore'), hcons t hsame, hrest⟩
    · exact expression_line hf (hall ▸ .token hends hopener hmore) hxs hys hagree

/-! ### Statements -/

theorem importing (h : Retouched sc whole f back ts us) {i : Import} {last : Token}
    (himport : Importing sc ts i last rest) :
    ∃ rest', Importing whole us i (f last) rest' ∧ Retouched sc whole f back rest rest' := by
  obtain @⟨k, first, r, more, hkind, htake⟩ := himport
  have hpart : ∀ {ts us}, Retouched sc whole f back ts us →
      us.takeWhile isNamePart = (ts.takeWhile isNamePart).map f ∧
        Agree sc whole f (ts.takeWhile isNamePart) ∧
        Retouched sc whole f back (ts.dropWhile isNamePart) (us.dropWhile isNamePart) :=
    fun h => h.takeWhile hf (fun t => by simp only [isNamePart, hf.kind])
      (fun t ht => by simp [isNamePart, remark_kind ht])
      (fun t ht => by simp [isNamePart, endsDirective, ht])
  rcases h.cons_cases with ⟨us', rfl, hus⟩ | ⟨xs, ys, b, hall, -, hxs, -, hb, -⟩
  · obtain ⟨htake', hagree, hrest⟩ := hpart hus
    rw [htake, List.map_cons] at htake'
    rw [htake] at hagree
    have hlast := List.mem_of_getLast? (@List.getLast?_cons _ more first)
    have hname : sc.importName first (more.getLast?.getD first) more.isEmpty =
        whole.importName (f first) ((more.map f).getLast?.getD (f first))
          (more.map f).isEmpty := by
      rw [getLast?_map_getD, List.isEmpty_map, importName, importName,
        hagree first List.mem_cons_self _ hlast, hf.kind, hf.value]
    rw [hname, ← getLast?_map_getD f, ← hf.text k]
    exact ⟨_, .intro (by rw [hf.kind]; exact hkind) htake', hrest⟩
  · -- at the end of the line there is no name
    cases xs with
    | nil =>
      have hnewline := hb k (by rw [← show k :: r = b from hall]; rfl)
      simp [endsDirective, hnewline] at hkind
    | cons x xs =>
      rw [List.forall_mem_cons] at hxs
      obtain ⟨-, rfl⟩ := List.cons.inj hall
      have hnone := (takeWhile_line hxs.2 hb (q := isNamePart)
        (fun t ht => by simp [isNamePart, remark_kind ht])
        (fun t ht => by simp [isNamePart, endsDirective, ht])).1
      cases hnone.symm.trans htake

end Retouched

/-! ### In front of any tokens -/

omit hf in
theorem groupEnd?_append {depth : Nat} (h : groupEnd? depth ts = some (t, rest))
    (zs : List Token) : groupEnd? depth (ts ++ zs) = some (t, rest ++ zs) := by
  obtain ⟨us, rfl, hdepth⟩ := groupEnd?_balanced h
  rw [List.append_assoc, groupEnd?_of_some _ hdepth]
  exact groupEnd?_cons_closer (groupEnd?_isCloser h) _

theorem nextIs_map_append {k : TokenKind} (h : ts ≠ []) (zs : List Token) :
    nextIs k (ts.map f ++ zs) = nextIs k ts := by
  obtain ⟨t, ts, rfl⟩ := List.exists_cons_of_ne_nil h
  simp [nextIs, hf.kind]

theorem afterAttribute_map_append (h : afterAttribute ts ≠ []) (zs : List Token) :
    afterAttribute (ts.map f ++ zs) = (afterAttribute ts).map f ++ zs := by
  have hts : ts ≠ [] := by
    rintro rfl
    exact h rfl
  unfold afterAttribute at h ⊢
  rw [nextIs_map_append hf hts]
  split
  · rfl
  · next hvariable =>
    rw [if_neg hvariable] at h
    have hmap : skipBlank (ts.map f) = (skipBlank ts).map f := by
      unfold skipBlank
      rw [List.dropWhile_map]
      congr 2
      exact funext fun t => by simp only [Function.comp, hf.kind, hf.isRemark]
    have hne : ¬ (skipBlank (ts.map f)).isEmpty = true := by
      rw [hmap, List.isEmpty_map, List.isEmpty_iff]
      exact h
    rw [← hmap]
    exact List.dropWhile_append.trans (if_neg hne)

/-- Attributes with a token behind them are read in front of any tokens. -/
theorem Grammar.Attributes.map_append {as : List Text} (h : Attributes sc ts as rest)
    (hrest : rest ≠ []) (hagree : Agree sc whole f ts) (zs : List Token) :
    Attributes whole (ts.map f ++ zs) as (rest.map f ++ zs) := by
  induction h with
  | nil hnext => exact .nil ((nextIs_map_append hf hrest zs).trans hnext)
  | @cons t close ts mid rest as hkind hend hmore ih =>
    have hmid := groupEnd?_suffix hend
    have hafter : afterAttribute mid ≠ [] := hmore.suffix.ne_nil hrest
    have hlater : afterAttribute mid <:+ t :: ts :=
      (afterAttribute_suffix mid).trans
        (((List.suffix_cons close mid).trans hmid).trans (List.suffix_cons t ts))
    have hclose := List.mem_cons_of_mem t (hmid.subset List.mem_cons_self)
    have hread := ih hrest (hagree.of_subset hlater.subset)
    rw [← afterAttribute_map_append hf hafter] at hread
    rw [← hagree t List.mem_cons_self close hclose]
    refine .cons ((hf.kind t).trans hkind) ?_ hread
    exact groupEnd?_append (by rw [hf.groupEnd?_map, hend]; rfl) zs

theorem baseTypesFrom_map_append {depth : Int} {base : Text} {bs : List Text}
    (h : baseTypesFrom depth base ts = (bs, rest)) (hrest : rest ≠ []) (zs : List Token) :
    baseTypesFrom depth base (ts.map f ++ zs) = (bs, rest.map f ++ zs) := by
  induction ts generalizing depth base bs with
  | nil =>
    cases h
    exact absurd rfl hrest
  | cons t ts ih =>
    rw [baseTypesFrom] at h
    rw [List.map_cons, List.cons_append, baseTypesFrom, hf.kind, hf.text]
    split at h
    · next hstop =>
      cases h
      exact if_pos hstop
    · next hstop =>
      apply (if_neg hstop).trans
      split at h
      · next hcomma =>
        obtain ⟨rfl, hsecond⟩ := Prod.mk.inj h
        rw [ih (Prod.ext rfl hsecond)]
        exact if_pos hcomma
      · next hcomma => exact (if_neg hcomma).trans (ih h)

theorem Grammar.BaseTypes.map_append {bs : List Text} (h : BaseTypes ts bs rest)
    (hrest : rest ≠ []) (zs : List Token) :
    BaseTypes (ts.map f ++ zs) bs (rest.map f ++ zs) := by
  cases h with
  | none hnext => exact .none ((nextIs_map_append hf hrest zs).trans hnext)
  | some hcolon heq hproper =>
    exact .some ((hf.kind _).trans hcolon) (baseTypesFrom_map_append hf heq hrest zs) hproper

/-! ### In front of the line end -/

namespace Retouched

omit hf in
/-- Up to a token in front of the line end all tokens have one in their place. -/
theorem exists_front (h : Retouched sc whole f back ts us) (hts : t :: rest <:+ ts)
    (ht : t.isRemark = false) (hback : back <:+ rest) :
    ∃ front c zs zs', ts = (front ++ t :: c) ++ zs ∧ rest = c ++ zs ∧
      us = (front ++ t :: c).map f ++ zs' ∧ Agree sc whole f (front ++ t :: c) ∧
      Retouched sc whole f back (t :: (c ++ zs)) ((t :: c).map f ++ zs') := by
  obtain ⟨a, xs, ys, b, hxs, hys, hb, hcut, ha, hagree⟩ := h
  obtain ⟨d, rfl⟩ : b <:+ rest := by
    rcases hcut with rfl | rfl
    · exact hback
    · exact List.nil_suffix
  obtain ⟨front, hfront⟩ := hts
  have hno : t ∉ xs := fun hmem => by simp [hxs t hmem] at ht
  have heq : front ++ t :: d = a ++ xs := by
    apply (List.append_left_inj b).mp
    simpa using hfront
  -- the token is no remark, so it stands in front of them
  obtain ⟨c, rfl, rfl⟩ : ∃ c, a = front ++ t :: c ∧ d = c ++ xs := by
    rcases List.append_eq_append_iff.mp heq with ⟨c, rfl, htail⟩ | ⟨c, rfl, hxs'⟩
    · rcases c with _ | ⟨u, c⟩
      · exact absurd (by rw [← show t :: d = xs from htail]; exact List.mem_cons_self) hno
      · obtain ⟨rfl, rfl⟩ := List.cons.inj htail
        exact ⟨c, rfl, rfl⟩
    · exact absurd (by rw [hxs']; simp) hno
  have hc := ha.of_subset (List.subset_append_right front (t :: c))
  exact ⟨front, c, xs ++ b, ys ++ b.map f, rfl, by simp, rfl, ha,
    .intro (t :: c) xs ys b hxs hys hb hcut hc hagree⟩

omit hf in
theorem agree_front {front : List Token} (h : Retouched sc whole f back ts us)
    (hts : ts = front ++ t :: rest) (ht : t.isRemark = false) (hback : back <:+ rest) :
    Agree sc whole f (front ++ [t]) := by
  obtain ⟨front', c, zs, zs', hts', rfl, -, ha, -⟩ :=
    h.exists_front (hts ▸ List.suffix_append front _) ht hback
  have hfront : front ++ [t] = front' ++ [t] := by
    apply (List.append_left_inj (c ++ zs)).mp
    rw [hts'] at hts
    simpa using hts.symm
  apply ha.of_subset
  rw [hfront]
  exact List.append_subset.mpr ⟨List.subset_append_left _ _, by simp⟩

theorem attributes (h : Retouched sc whole f back ts us) {as : List Text}
    (hattributes : Attributes sc ts as (t :: rest)) (ht : t.isRemark = false)
    (hback : back <:+ rest) :
    ∃ us', Attributes whole us as us' ∧ Retouched sc whole f back (t :: rest) us' := by
  obtain ⟨front, c, zs, zs', rfl, rfl, rfl, ha, hrest⟩ := h.exists_front hattributes.suffix ht hback
  have hne := List.cons_ne_nil t c
  obtain ⟨vs, hvs, hcut⟩ := @Attributes.cut _ _ (t :: c) zs _ hattributes hne
  rw [← List.append_cancel_right hvs] at hcut
  exact ⟨_, hcut.map_append hf hne ha zs', hrest⟩

theorem baseTypes (h : Retouched sc whole f back ts us) {bs : List Text}
    (hbases : BaseTypes ts bs (t :: rest)) (ht : t.isRemark = false) (hback : back <:+ rest) :
    ∃ us', BaseTypes us bs us' ∧ Retouched sc whole f back (t :: rest) us' := by
  obtain ⟨front, c, zs, zs', rfl, rfl, rfl, -, hrest⟩ := h.exists_front hbases.suffix ht hback
  have hne := List.cons_ne_nil t c
  obtain ⟨vs, hvs, hcut⟩ := @BaseTypes.cut _ (t :: c) zs _ hbases hne
  rw [← List.append_cancel_right hvs] at hcut
  exact ⟨_, hcut.map_append hf hne zs', hrest⟩

end Retouched

end

end ScriptModule
