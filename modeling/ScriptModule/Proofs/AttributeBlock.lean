/-
  ScriptModule/Proofs/AttributeBlock.lean
  =======================================
  **The attributes in front of a token.**  They are looked for from the back: line ends and
  remarks are skipped, groups in brackets are taken, and anything else ends the block.  A
  line with a requirement comment ends it too, unless it stands inside a group.
-/
import Mathlib.Data.List.Basic
import ScriptModule.Script.EntryPoint

namespace ScriptModule.Script

/-! ### Groups from the back -/

/-- How many groups are open in front of a token that `depth` of them are open behind, inside
    the group that is read; nothing in front of its opener. -/
def depthInFront (depth : Nat) (t : Token) : Option Nat :=
  if t.kind = .rightBracket then some (depth + 1)
  else if t.kind = .leftBracket then
    match depth with
    | 0 => none
    | d + 1 => some d
  else some depth

theorem groupStart?_cons (depth : Nat) (t : Token) (ts : List Token) :
    groupStart? depth (t :: ts) =
      match depthInFront depth t with
      | none => some ([t], ts)
      | some d => (groupStart? d ts).map fun p => (t :: p.1, p.2) := by
  unfold depthInFront
  rw [groupStart?.eq_def]
  dsimp only
  split
  · rfl
  · split
    · cases depth <;> rfl
    · rfl

theorem groupStart?_append {depth : Nat} {ts g front : List Token} (more : List Token)
    (h : groupStart? depth ts = some (g, front)) :
    groupStart? depth (ts ++ more) = some (g, front ++ more) := by
  induction ts generalizing depth g with
  | nil => cases h
  | cons t ts ih =>
    rw [groupStart?_cons] at h
    rw [List.cons_append, groupStart?_cons]
    cases hdepth : depthInFront depth t with
    | none =>
      rw [hdepth] at h
      cases h
      rfl
    | some d =>
      rw [hdepth] at h
      obtain ⟨⟨g', front'⟩, hstart, hpair⟩ := Option.map_eq_some_iff.mp h
      cases hpair
      simp only [ih hstart, Option.map_some]

/-- A group that is read backwards ends with its opener. -/
theorem groupStart?_shape {depth : Nat} {ts g front : List Token}
    (h : groupStart? depth ts = some (g, front)) :
    ts = g ++ front ∧ ∃ mid o, g = mid ++ [o] ∧ o.kind = .leftBracket := by
  induction ts generalizing depth g with
  | nil => cases h
  | cons t ts ih =>
    rw [groupStart?_cons] at h
    cases hdepth : depthInFront depth t with
    | none =>
      rw [hdepth] at h
      cases h
      refine ⟨rfl, [], t, rfl, ?_⟩
      by_contra hkind
      simp [depthInFront, hkind] at hdepth
      split at hdepth <;> cases hdepth
    | some d =>
      rw [hdepth] at h
      obtain ⟨⟨g', front'⟩, hstart, hpair⟩ := Option.map_eq_some_iff.mp h
      cases hpair
      obtain ⟨rfl, mid, o, rfl, ho⟩ := ih hstart
      exact ⟨rfl, t :: mid, o, rfl, ho⟩

/-- In front of tokens that do not open it, a group goes on with some depth. -/
theorem exists_depth {depth : Nat} {ts : List Token} (h : groupStart? depth ts = none) :
    ∃ d, ∀ more, groupStart? depth (ts ++ more) =
      (groupStart? d more).map fun p => (ts ++ p.1, p.2) := by
  induction ts generalizing depth with
  | nil => exact ⟨depth, fun more => by simp⟩
  | cons t ts ih =>
    rw [groupStart?_cons] at h
    cases hdepth : depthInFront depth t with
    | none =>
      rw [hdepth] at h
      cases h
    | some d =>
      rw [hdepth] at h
      obtain ⟨d', hmore⟩ := ih (Option.map_eq_none_iff.mp h)
      refine ⟨d', fun more => ?_⟩
      rw [List.cons_append, groupStart?_cons, hdepth]
      simp only [hmore, Option.map_map]
      rfl

/-! ### Blocks -/

/-- The attributes that tokens, read backwards, start with, the nearest first, and the tokens
    in front of some of them. -/
inductive AttributeBlock : List Token → List (List Token) → List Token → Prop where
  | done {back : List Token} : AttributeBlock back [] back
  | blank {t : Token} {back rest : List Token} {gs : List (List Token)} :
      (t.kind == .newline || t.isRemark) = true → AttributeBlock back gs rest →
      AttributeBlock (t :: back) gs rest
  | group {t : Token} {back g front rest : List Token} {gs : List (List Token)} :
      t.kind = .rightBracket → groupStart? 0 back = some (g, front) →
      AttributeBlock front gs rest → AttributeBlock (t :: back) ((t :: g).reverse :: gs) rest

/-- Whether tokens, read backwards, end a block of attributes at once. -/
def EndsBlock : List Token → Prop
  | [] => True
  | t :: back => (t.kind == .newline || t.isRemark) = false ∧
      (t.kind = .rightBracket → groupStart? 0 back = none)

section

variable {t : Token} {back g front : List Token}

theorem attributeGroups_eq (back : List Token) :
    attributeGroups back =
      match skipBlank back with
      | [] => []
      | t :: r =>
        if t.kind = .rightBracket then
          match groupStart? 0 r with
          | none => []
          | some (g, rest) => (t :: g).reverse :: attributeGroups rest
        else [] := by
  rw [attributeGroups]
  split
  · next hnone => rw [hnone]
  · next t r hsome =>
    rw [hsome]
    simp only
    split
    · split
      · next hnone => rw [hnone]
      · next g rest hstart => rw [hstart]
    · rfl

theorem attributeGroups_blank (h : (t.kind == .newline || t.isRemark) = true) :
    attributeGroups (t :: back) = attributeGroups back := by
  have hskip : skipBlank (t :: back) = skipBlank back :=
    List.dropWhile_cons_of_pos (p := fun t : Token => t.kind == .newline || t.isRemark) h
  rw [attributeGroups_eq, hskip, ← attributeGroups_eq]

theorem skipBlank_of_neg (h : (t.kind == .newline || t.isRemark) = false) :
    skipBlank (t :: back) = t :: back :=
  List.dropWhile_cons_of_neg (p := fun t : Token => t.kind == .newline || t.isRemark)
    (by simpa using h)

theorem attributeGroups_group (hclose : t.kind = .rightBracket)
    (hstart : groupStart? 0 back = some (g, front)) :
    attributeGroups (t :: back) = (t :: g).reverse :: attributeGroups front := by
  have hneg : (t.kind == .newline || t.isRemark) = false := by simp [hclose, Token.isRemark]
  rw [attributeGroups_eq, skipBlank_of_neg hneg]
  simp only [if_pos hclose, hstart]

theorem attributeGroups_of_endsBlock (h : EndsBlock back) : attributeGroups back = [] := by
  cases back with
  | nil => rw [attributeGroups_eq]; rfl
  | cons t back =>
    obtain ⟨hneg, hopen⟩ := h
    rw [attributeGroups_eq, skipBlank_of_neg hneg]
    by_cases hclose : t.kind = .rightBracket
    · simp only [if_pos hclose, hopen hclose]
    · simp only [if_neg hclose]

end

theorem AttributeBlock.groups {back rest : List Token} {gs : List (List Token)}
    (h : AttributeBlock back gs rest) : attributeGroups back = gs ++ attributeGroups rest := by
  induction h with
  | done => rfl
  | blank hblank _ ih => rw [attributeGroups_blank hblank, ih]
  | group hclose hstart _ ih => rw [attributeGroups_group hclose hstart, ih]; rfl

/-- An attribute group starts and ends with a bracket. -/
theorem brackets_of_mem_attributeGroups {back g : List Token} (h : g ∈ attributeGroups back) :
    ∃ o mid c, g = o :: (mid ++ [c]) ∧ o.kind = .leftBracket ∧ c.kind = .rightBracket := by
  fun_induction attributeGroups back with
  | case1 => cases h
  | case2 => cases h
  | case3 back t r hback hclose g' rest hstart ih =>
    rcases List.mem_cons.mp h with rfl | h
    · obtain ⟨-, mid, o, rfl, ho⟩ := groupStart?_shape hstart
      exact ⟨o, mid.reverse, t, by simp, ho, hclose⟩
    · exact ih h
  | case4 => cases h

theorem AttributeBlock.append {back rest : List Token} {gs : List (List Token)}
    (h : AttributeBlock back gs rest) (more : List Token) :
    AttributeBlock (back ++ more) gs (rest ++ more) := by
  induction h with
  | done => exact .done
  | blank hblank _ ih => exact .blank hblank ih
  | group hclose hstart _ ih => exact .group hclose (groupStart?_append more hstart) ih

/-- Any tokens start, read backwards, with a block of attributes that ends somewhere. -/
theorem exists_attributeBlock (back : List Token) :
    ∃ gs rest, AttributeBlock back gs rest ∧ EndsBlock rest := by
  induction hlength : back.length using Nat.strongRecOn generalizing back with
  | ind n ih =>
    cases back with
    | nil => exact ⟨[], [], .done, trivial⟩
    | cons t back =>
      by_cases hblank : (t.kind == .newline || t.isRemark) = true
      · obtain ⟨gs, rest, hblock, hends⟩ := ih back.length (by rw [← hlength]; simp) back rfl
        exact ⟨gs, rest, .blank hblank hblock, hends⟩
      · by_cases hclose : t.kind = .rightBracket
        · cases hstart : groupStart? 0 back with
          | none =>
            exact ⟨[], t :: back, .done, Bool.eq_false_iff.mpr hblank, fun _ => hstart⟩
          | some p =>
            have hshort := groupStart?_length hstart
            obtain ⟨gs, rest, hblock, hends⟩ :=
              ih p.2.length (by rw [← hlength, List.length_cons]; omega) p.2 rfl
            exact ⟨_, rest, .group hclose hstart hblock, hends⟩
        · exact ⟨[], t :: back, .done, Bool.eq_false_iff.mpr hblank, fun h => absurd h hclose⟩

end ScriptModule.Script
