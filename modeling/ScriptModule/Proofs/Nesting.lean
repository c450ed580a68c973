/-
  ScriptModule/Proofs/Nesting.lean
  ================================
  **Two readings of brackets.**  The search for a parameter block keeps the open groups and
  recovers from a closer of another kind; skipping a group counts brackets of all kinds
  alike.  Where each closer is of the kind of the innermost open group, both read the same
  groups: the block is the first keyword behind as many openers as closers, and skipping
  ends at the closer that matches the opener.
-/
import ScriptModule.Proofs.DirectivePlace
import ScriptModule.Proofs.EnumSource
import ScriptModule.Proofs.Routing

namespace ScriptModule

/-! ### Well-nested tokens -/

/-- The groups open behind a token, where a closer ends the innermost group and has to be of
    its kind; nothing for any other closer. -/
def nestedAfter? (groups : List TokenKind) (k : TokenKind) : Option (List TokenKind) :=
  if k.isOpener then some (k :: groups)
  else if k.isCloser then
    match groups with
    | [] => none
    | g :: outer => if g.closer? = some k then some outer else none
  else some groups

/-- The groups open behind tokens, the innermost one first, if they are well nested. -/
def nestedBehind? (groups : List TokenKind) (ts : List Token) : Option (List TokenKind) :=
  ts.foldlM (fun gs t => nestedAfter? gs t.kind) groups

/-- Whether each closer is of the kind of the innermost open group.  No closer stands outside
    all groups; at the end, groups may be open. -/
def WellNested (ts : List Token) : Prop := (nestedBehind? [] ts).isSome = true

instance (ts : List Token) : Decidable (WellNested ts) := inferInstanceAs (Decidable (_ = _))

/-- Whether the token at `j` closes the group that the token at `i` opens: it is of the
    group's kind, and between the two every group is closed. -/
def Closes (ts : List Token) (i j : Nat) : Prop :=
  ∃ o inner c rest, ts.drop i = o :: (inner ++ c :: rest) ∧ j = i + 1 + inner.length ∧
    o.kind.closer? = some c.kind ∧ nestedBehind? [] inner = some []

/-- The number of openers among tokens, brackets of all kinds counted alike. -/
def openers (ts : List Token) : Nat := ts.countP fun t => t.kind.isOpener

/-- The number of closers among tokens, brackets of all kinds counted alike. -/
def closers (ts : List Token) : Nat := ts.countP fun t => t.kind.isCloser

/-- A parameter keyword with as many openers as closers in front of it. -/
def IsEvenParam (ts : List Token) (i : Nat) : Prop :=
  ts[i]?.map Token.kind = some .paramWord ∧ openers (ts.take i) = closers (ts.take i)

instance (ts : List Token) (i : Nat) : Decidable (IsEvenParam ts i) :=
  inferInstanceAs (Decidable (_ ∧ _))

section

variable {groups after inner outer : List TokenKind} {k g : TokenKind} {ts rest : List Token}

/-- What a token does to the open groups. -/
theorem nestedAfter?_cases (h : nestedAfter? groups k = some after) :
    (k.isOpener = true ∧ after = k :: groups) ∨
      (k.isCloser = true ∧ ∃ g, groups = g :: after ∧ g.closer? = some k) ∨
      (¬ k.isOpener = true ∧ ¬ k.isCloser = true ∧ after = groups) := by
  unfold nestedAfter? at h
  split at h
  · next hopener => exact .inl ⟨hopener, (Option.some.inj h).symm⟩
  · next hopener =>
    split at h
    · next hcloser =>
      cases groups with
      | nil => cases h
      | cons g outer =>
        obtain ⟨hkind, houter⟩ := Option.ite_none_right_eq_some.mp h
        cases houter
        exact .inr (.inl ⟨hcloser, g, rfl, hkind⟩)
    · next hcloser => exact .inr (.inr ⟨hopener, hcloser, (Option.some.inj h).symm⟩)

theorem isCloser_of_closer? (h : g.closer? = some k) : k.isCloser = true := by
  cases g <;> cases h <;> rfl

theorem nestedAfter?_opener (hopener : k.isOpener = true) :
    nestedAfter? groups k = some (k :: groups) := if_pos hopener

theorem nestedAfter?_closer (hkind : g.closer? = some k) :
    nestedAfter? (g :: groups) k = some groups := by
  have hcloser := isCloser_of_closer? hkind
  simp [nestedAfter?, isOpener_of_isCloser hcloser, hcloser, hkind]

theorem nestedAfter?_plain (hopener : ¬ k.isOpener = true) (hcloser : ¬ k.isCloser = true) :
    nestedAfter? groups k = some groups := by
  unfold nestedAfter?
  rw [if_neg hopener, if_neg hcloser]

theorem nestedBehind?_cons {t : Token} :
    nestedBehind? groups (t :: ts) = some after ↔
      ∃ mid, nestedAfter? groups t.kind = some mid ∧ nestedBehind? mid ts = some after := by
  rw [nestedBehind?, List.foldlM_cons]
  exact Option.bind_eq_some_iff

theorem nestedBehind?_append {front back : List Token} :
    nestedBehind? groups (front ++ back) = some after ↔
      ∃ mid, nestedBehind? groups front = some mid ∧ nestedBehind? mid back = some after := by
  rw [nestedBehind?, List.foldlM_append]
  exact Option.bind_eq_some_iff

/-! ### The open groups and their number -/

/-- Where brackets nest, recovery from a closer of another kind never happens. -/
theorem groupsAfter_of_nested (h : nestedAfter? groups k = some after) :
    groupsAfter groups k = after := by
  rcases nestedAfter?_cases h with ⟨hopener, rfl⟩ | ⟨hcloser, g, rfl, hkind⟩ |
    ⟨hopener, hcloser, rfl⟩
  · exact groupsAfter_opener hopener
  · exact groupsAfter_closer hcloser hkind
  · exact groupsAfter_plain hopener hcloser

theorem groupsBehind_of_nested (h : nestedBehind? groups ts = some after) :
    Script.groupsBehind groups ts = after := by
  induction ts generalizing groups with
  | nil => exact Option.some.inj h
  | cons t ts ih =>
    obtain ⟨mid, hstep, hmore⟩ := nestedBehind?_cons.mp h
    rw [Script.groupsBehind, List.foldl_cons, groupsAfter_of_nested hstep]
    exact ih hmore

/-- As many groups are open as there are openers more than closers. -/
theorem length_of_nested (h : nestedBehind? groups ts = some after) :
    after.length + closers ts = groups.length + openers ts := by
  induction ts generalizing groups with
  | nil =>
    cases h
    rfl
  | cons t ts ih =>
    obtain ⟨mid, hstep, hmore⟩ := nestedBehind?_cons.mp h
    have hall := ih hmore
    unfold closers openers at hall ⊢
    rw [List.countP_cons, List.countP_cons]
    rcases nestedAfter?_cases hstep with ⟨hopener, rfl⟩ | ⟨hcloser, g, rfl, -⟩ |
      ⟨hopener, hcloser, rfl⟩
    · have hcloser : ¬ t.kind.isCloser = true := by
        intro hcloser
        rw [isOpener_of_isCloser hcloser] at hopener
        cases hopener
      rw [if_pos hopener, if_neg hcloser]
      rw [List.length_cons] at hall
      omega
    · have hopener : ¬ t.kind.isOpener = true := by simp [isOpener_of_isCloser hcloser]
      rw [if_pos hcloser, if_neg hopener, List.length_cons]
      omega
    · rw [if_neg hcloser, if_neg hopener]
      exact hall

theorem WellNested.split {front back : List Token} (h : WellNested (front ++ back)) :
    ∃ mid after, nestedBehind? [] front = some mid ∧ nestedBehind? mid back = some after := by
  obtain ⟨after, hafter⟩ := Option.isSome_iff_exists.mp h
  obtain ⟨mid, hfront, hback⟩ := nestedBehind?_append.mp hafter
  exact ⟨mid, after, hfront, hback⟩

/-- Behind the front of well-nested tokens, no group is open exactly if there are as many
    openers as closers. -/
theorem WellNested.groupsBehind_take (h : WellNested ts) (i : Nat) :
    Script.groupsBehind [] (ts.take i) = [] ↔ openers (ts.take i) = closers (ts.take i) := by
  rw [← List.take_append_drop i ts] at h
  obtain ⟨mid, -, hfront, -⟩ := h.split
  have hlength := length_of_nested hfront
  rw [List.length_nil] at hlength
  rw [groupsBehind_of_nested hfront, ← List.length_eq_zero_iff]
  omega

/-! ### The parameter keyword -/

/-- A parameter keyword in front of which all groups are closed, or ended by recovery. -/
def IsBareParam (groups : List TokenKind) (ts : List Token) (i : Nat) : Prop :=
  ts[i]?.map Token.kind = some .paramWord ∧ Script.groupsBehind groups (ts.take i) = []

/-- The keyword that is found is the first one outside all groups. -/
theorem paramIndexFrom_eq_some_iff {i : Nat} :
    paramIndexFrom groups ts = some i ↔
      IsBareParam groups ts i ∧ ∀ j < i, ¬ IsBareParam groups ts j := by
  induction ts generalizing groups i with
  | nil => simp [paramIndexFrom, IsBareParam]
  | cons t ts ih =>
    have hfirst : (t.kind == .paramWord && groups.isEmpty) = true ↔
        IsBareParam groups (t :: ts) 0 := by
      simp [IsBareParam, Script.groupsBehind]
    have hlater : ∀ j, IsBareParam groups (t :: ts) (j + 1) ↔
        IsBareParam (groupsAfter groups t.kind) ts j := fun _ => Iff.rfl
    rw [paramIndexFrom]
    by_cases hbare : IsBareParam groups (t :: ts) 0
    · rw [if_pos (hfirst.mpr hbare)]
      constructor
      · intro h
        cases h
        exact ⟨hbare, fun j hj => absurd hj (Nat.not_lt_zero j)⟩
      · rintro ⟨-, hnone⟩
        cases i with
        | zero => rfl
        | succ i => exact absurd hbare (hnone 0 i.succ_pos)
    · rw [if_neg (mt hfirst.mp hbare)]
      cases i with
      | zero => simp [hbare]
      | succ i =>
        have hfound : ∀ found : Option Nat, found.map (· + 1) = some (i + 1) ↔ found = some i := by
          rintro (_ | n) <;> simp
        rw [hfound, ih, hlater, Nat.forall_lt_succ_left]
        simp only [hlater, hbare, not_false_iff, true_and]

/-- In well-nested tokens, no group is open behind as many openers as closers. -/
theorem WellNested.isBareParam_iff (h : WellNested ts) (i : Nat) :
    IsBareParam [] ts i ↔ IsEvenParam ts i :=
  and_congr_right' (h.groupsBehind_take i)

theorem WellNested.paramIndex?_eq_some_iff (h : WellNested ts) (i : Nat) :
    paramIndex? ts = some i ↔ IsEvenParam ts i ∧ ∀ j < i, ¬ IsEvenParam ts j := by
  simp only [← h.isBareParam_iff]
  exact paramIndexFrom_eq_some_iff

theorem WellNested.paramIndex?_eq_none_iff (h : WellNested ts) :
    paramIndex? ts = none ↔ ∀ i, ¬ IsEvenParam ts i := by
  constructor
  · intro hnone i
    induction i using Nat.strong_induction_on with
    | _ i ih =>
      intro heven
      rw [(h.paramIndex?_eq_some_iff i).mpr ⟨heven, ih⟩] at hnone
      cases hnone
  · intro hno
    rw [Option.eq_none_iff_forall_ne_some]
    intro i hi
    exact hno i ((h.paramIndex?_eq_some_iff i).mp hi).1

/-! ### Skipping a group -/

/-- Counting brackets comes past well-nested tokens with the number of their open groups. -/
theorem depthAfter_of_nested (h : nestedBehind? groups ts = some after) :
    depthAfter groups.length (ts.map Token.kind) = some after.length := by
  induction ts generalizing groups with
  | nil =>
    cases h
    rfl
  | cons t ts ih =>
    obtain ⟨mid, hstep, hmore⟩ := nestedBehind?_cons.mp h
    rw [List.map_cons]
    unfold depthAfter
    rcases nestedAfter?_cases hstep with ⟨hopener, rfl⟩ | ⟨hcloser, g, rfl, -⟩ |
      ⟨hopener, hcloser, rfl⟩
    · rw [if_pos hopener]
      exact ih hmore
    · rw [if_neg (by simp [isOpener_of_isCloser hcloser]), if_pos hcloser]
      exact ih hmore
    · rw [if_neg hopener, if_neg hcloser]
      exact ih hmore

/-- Where brackets nest, the closer that ends the count is of the group's kind, and the groups
    inside are closed in front of it. -/
theorem exists_inside {c : Token} (hend : groupEnd? inner.length ts = some (c, rest))
    (h : nestedBehind? (inner ++ g :: outer) ts = some after) :
    ∃ us, ts = us ++ c :: rest ∧ nestedBehind? inner us = some [] ∧ g.closer? = some c.kind := by
  induction ts generalizing inner with
  | nil => cases hend
  | cons t ts ih =>
    obtain ⟨mid, hstep, hmore⟩ := nestedBehind?_cons.mp h
    unfold groupEnd? at hend
    rcases nestedAfter?_cases hstep with ⟨hopener, rfl⟩ | ⟨hcloser, k, hgroups, hkind⟩ |
      ⟨hopener, hcloser, rfl⟩
    · rw [if_pos hopener] at hend
      obtain ⟨us, rfl, hus, hclose⟩ := @ih (t.kind :: inner) hend hmore
      exact ⟨t :: us, rfl, nestedBehind?_cons.mpr ⟨_, nestedAfter?_opener hopener, hus⟩, hclose⟩
    · rw [if_neg (by simp [isOpener_of_isCloser hcloser]), if_pos hcloser] at hend
      cases inner with
      | nil =>
        cases hend
        obtain ⟨rfl, rfl⟩ := List.cons.inj hgroups
        exact ⟨[], rfl, rfl, hkind⟩
      | cons top inner =>
        obtain ⟨rfl, rfl⟩ := List.cons.inj hgroups
        obtain ⟨us, rfl, hus, hclose⟩ := ih hend hmore
        have hpop := @nestedAfter?_closer inner _ _ hkind
        exact ⟨t :: us, rfl, nestedBehind?_cons.mpr ⟨_, hpop, hus⟩, hclose⟩
    · rw [if_neg hopener, if_neg hcloser] at hend
      obtain ⟨us, rfl, hus, hclose⟩ := ih hend hmore
      have hstay := @nestedAfter?_plain inner _ hopener hcloser
      exact ⟨t :: us, rfl, nestedBehind?_cons.mpr ⟨_, hstay, hus⟩, hclose⟩

section

variable {i j : Nat}

/-- A closed group is skipped up to the token that closes it. -/
theorem Closes.skipped (h : Closes ts i j) :
    ∃ c, ts[j]? = some c ∧ groupEnd? 0 (ts.drop (i + 1)) = some (c, ts.drop (j + 1)) := by
  obtain ⟨o, inner, c, rest, hdrop, rfl, hkind, hinner⟩ := h
  have hbehind : ts.drop (i + 1) = inner ++ c :: rest := by
    rw [← List.tail_drop, hdrop, List.tail_cons]
  have hclose : ts[i + 1 + inner.length]? = some c := by
    rw [← List.getElem?_drop, hbehind]
    simp
  have hrest : ts.drop (i + 1 + inner.length + 1) = rest := by
    rw [Nat.add_assoc, ← List.drop_drop, hbehind]
    simp
  have hcloser : c.kind.isCloser = true := isCloser_of_closer? hkind
  have hskip : groupEnd? 0 (inner ++ c :: rest) = groupEnd? 0 (c :: rest) :=
    groupEnd?_of_some _ (depthAfter_of_nested hinner)
  refine ⟨c, hclose, ?_⟩
  rw [hbehind, hrest, hskip]
  exact groupEnd?_cons_closer hcloser rest

theorem Closes.unique {k : Nat} (h : Closes ts i j) (h' : Closes ts i k) : k = j := by
  obtain ⟨c, hc, hend⟩ := h.skipped
  obtain ⟨d, hd, hend'⟩ := h'.skipped
  have hsame : ts.drop (j + 1) = ts.drop (k + 1) := by
    rw [hend] at hend'
    exact (Prod.mk.inj (Option.some.inj hend')).2
  have hlength := congrArg List.length hsame
  rw [List.length_drop, List.length_drop] at hlength
  have hj := (List.getElem?_eq_some_iff.mp hc).1
  have hk := (List.getElem?_eq_some_iff.mp hd).1
  omega

/-- In well-nested tokens, skipping from an opener ends at nothing but what closes its group. -/
theorem WellNested.closes {o c : Token} (h : WellNested ts) (ho : ts[i]? = some o)
    (hopener : o.kind.isOpener = true)
    (hend : groupEnd? 0 (ts.drop (i + 1)) = some (c, rest)) : ∃ j, Closes ts i j := by
  have hdrop : ts.drop i = o :: ts.drop (i + 1) := by
    obtain ⟨hi, rfl⟩ := List.getElem?_eq_some_iff.mp ho
    exact List.drop_eq_getElem_cons hi
  rw [← List.take_append_drop i ts, hdrop] at h
  obtain ⟨mid, after, -, hback⟩ := h.split
  obtain ⟨_, hstep, hmore⟩ := nestedBehind?_cons.mp hback
  cases (nestedAfter?_opener hopener).symm.trans hstep
  obtain ⟨inner, hinner, hnested, hkind⟩ := @exists_inside _ [] _ _ _ _ _ hend hmore
  exact ⟨_, o, inner, c, rest, hdrop.trans (congrArg _ hinner), rfl, hkind, hnested⟩

end

end

/-! ### Both readings -/

/-- In well-nested tokens both readings of brackets follow the groups.  The parameter keyword
    that is found is the first one behind as many openers as closers.  Behind an opener, what
    is skipped ends at the one token that closes its group, if that group is closed. -/
theorem WellNested.readings_agree {ts : List Token} (h : WellNested ts) :
    (∀ i, paramIndex? ts = some i ↔ IsEvenParam ts i ∧ ∀ j < i, ¬ IsEvenParam ts j) ∧
      (paramIndex? ts = none ↔ ∀ i, ¬ IsEvenParam ts i) ∧
      ∀ (sc : Script) (i : Nat) (o : Token), ts[i]? = some o → o.kind.isOpener = true →
        (∀ j, Closes ts i j → (∀ k, Closes ts i k → k = j) ∧
          ∃ c, ts[j]? = some c ∧ sc.group o (ts.drop (i + 1)) = .ok (c, ts.drop (j + 1))) ∧
        ((∀ j, ¬ Closes ts i j) → sc.group o (ts.drop (i + 1)) =
          .error (sc.reportToken (.unterminatedGroup o.text) o)) := by
  refine ⟨h.paramIndex?_eq_some_iff, h.paramIndex?_eq_none_iff, ?_⟩
  intro sc i o ho hopener
  constructor
  · intro j hcloses
    obtain ⟨c, hc, hend⟩ := hcloses.skipped
    refine ⟨fun k => hcloses.unique, c, hc, ?_⟩
    rw [Script.group, hend]
  · intro hopen
    rcases hend : groupEnd? 0 (ts.drop (i + 1)) with _ | ⟨c, rest⟩
    · rw [Script.group, hend]
    · obtain ⟨j, hj⟩ := h.closes ho hopener hend
      exact absurd hj (hopen j)

/-- A table with a keyword and a group of another kind in it, the keyword of a block, and two
    groups that are not closed. -/
theorem WellNested.readings_agree_table :
    let ts : List Token := [TokenKind.atBrace, .paramWord, .dollarParen, .word, .rightParen,
      .rightBrace, .paramWord, .leftParen, .leftBrace].map fun k => ⟨k, [], .start, .start, none⟩
    WellNested ts ∧ paramIndex? ts = some 6 ∧ Closes ts 0 5 ∧
      ∀ sc : Script, (∃ o c, ts[0]? = some o ∧ ts[5]? = some c ∧
          sc.group o (ts.drop 1) = .ok (c, ts.drop 6)) ∧
        ∃ o, ts[7]? = some o ∧
          sc.group o (ts.drop 8) = .error (sc.reportToken (.unterminatedGroup o.text) o) := by
  intro ts
  have hnested : WellNested ts := by decide
  have hcloses : Closes ts 0 5 := ⟨_, (ts.drop 1).take 4, _, _, rfl, rfl, rfl, rfl⟩
  have hopen : ∀ j, ¬ Closes ts 7 j := by
    intro j hj
    obtain ⟨c, -, hend⟩ := hj.skipped
    cases hend
  obtain ⟨hparam, -, hgroups⟩ := readings_agree hnested
  refine ⟨hnested, (hparam 6).mpr (by decide), hcloses, ?_⟩
  intro sc
  obtain ⟨-, c, hc, hskip⟩ := (hgroups sc 0 _ rfl rfl).1 5 hcloses
  exact ⟨⟨_, c, rfl, hc, hskip⟩, _, rfl, (hgroups sc 7 _ rfl rfl).2 hopen⟩

end ScriptModule
