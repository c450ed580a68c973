/-
  ScriptModule/Script/Enumeration.lean
  ====================================
  **Enumerations.**  A name, an underlying type behind a colon if there is one, and
  members between braces.  The value of a member is all that stands behind its equals
  sign, up to the gap in front of the next member.
-/
import ScriptModule.Script.Basic

namespace ScriptModule.Script

/-- Tokens between the members of an enumeration. -/
def isMemberGap (t : Token) : Bool :=
  t.kind == .newline || t.kind == .semicolon || t.kind == .comment

/-- Tokens that the value of a member is made of. -/
def isValuePart (t : Token) : Bool := !isMemberGap t && t.kind != .rightBrace

/-- The value of a member, if an equals sign follows its name. -/
def memberValue (sc : Script) (member : Text) (ts : List Token) :
    Except Report (Option Text × List Token) :=
  match ts with
  | e :: r =>
    if e.kind = .equals then
      let rest := r.dropWhile isValuePart
      match r.takeWhile isValuePart with
      | [] => .error (sc.report (.missingMemberValue member) rest)
      | first :: more => .ok (some (sc.slice first (more.getLast?.getD first)), rest)
    else .ok (none, e :: r)
  | [] => .ok (none, [])

theorem memberValue_length {sc : Script} {member : Text} {ts rest : List Token}
    {v : Option Text} (h : sc.memberValue member ts = .ok (v, rest)) :
    rest.length ≤ ts.length := by
  unfold memberValue at h
  split at h
  · next e r =>
    split at h
    · split at h
      · simp at h
      · cases h
        have := (List.dropWhile_suffix (l := r) isValuePart).length_le
        simp only [List.length_cons]; omega
    · cases h; exact Nat.le_refl _
  · cases h; exact Nat.le_refl _

/-- The members of an enumeration, the closing brace, and what follows it.  Groups in
    brackets in front of a member are passed over. -/
def members (sc : Script) (enum : Text) (ts : List Token) :
    Except Report (List EnumMember × Token × List Token) :=
  match _hd : ts.dropWhile isMemberGap with
  | [] => .error (sc.report (.missingMember enum none) [])
  | t :: r =>
    if t.kind = .rightBrace then .ok ([], t, r)
    else if t.kind = .leftBracket then
      match _h : sc.group t r with
      | .error e => .error e
      | .ok (_, rest) => sc.members enum rest
    else if t.kind.isName then
      match _h : sc.memberValue t.text r with
      | .error e => .error e
      | .ok (v, rest) =>
        match sc.members enum rest with
        | .error e => .error e
        | .ok (ms, close, rest') => .ok (⟨t.text, v⟩ :: ms, close, rest')
    else .error (sc.reportToken (.missingMember enum (some t.text)) t)
termination_by ts.length
decreasing_by
  all_goals
    have h1 := (List.dropWhile_suffix (l := ts) isMemberGap).length_le
    rw [_hd] at h1
    simp only [List.length_cons] at h1
  · have := group_length _h; omega
  · have := memberValue_length _h; omega

theorem members_length {sc : Script} {enum : Text} {ts rest : List Token} {close : Token}
    {ms : List EnumMember} (h : sc.members enum ts = .ok (ms, close, rest)) :
    rest.length < ts.length := by
  induction n : ts.length using Nat.strongRecOn generalizing ts ms with
  | ind n ih =>
    unfold members at h
    have h1 := (List.dropWhile_suffix (l := ts) isMemberGap).length_le
    split at h
    · simp at h
    · next t r hd =>
      rw [hd] at h1
      simp only [List.length_cons] at h1
      split at h
      · cases h; omega
      · split at h
        · split at h
          · simp at h
          · next hg =>
            have h2 := group_length hg
            have := ih _ (by omega) h rfl
            omega
        · split at h
          · split at h
            · simp at h
            · next hv =>
              have h2 := memberValue_length hv
              split at h
              · simp at h
              · next hm =>
                cases h
                have := ih _ (by omega) hm rfl
                omega
          · simp at h

/-- The type that the values of an enumeration have, behind a colon. -/
def underlyingType (sc : Script) (ts : List Token) :
    Except Report (Option Text × List Token) :=
  match ts with
  | t :: r =>
    if t.kind = .colon then
      match sc.name .missingUnderlyingType r with
      | .error e => .error e
      | .ok (n, rest) => .ok (some n, rest)
    else .ok (none, t :: r)
  | [] => .ok (none, [])

theorem underlyingType_length {sc : Script} {ts rest : List Token} {n : Option Text}
    (h : sc.underlyingType ts = .ok (n, rest)) : rest.length ≤ ts.length := by
  unfold underlyingType at h
  split at h
  · split at h
    · split at h
      · simp at h
      · next hn => cases h; exact Nat.le_succ_of_le (Nat.le_of_lt (name_length hn))
    · cases h; exact Nat.le_refl _
  · cases h; exact Nat.le_refl _

def enumDef (sc : Script) (first : Token) (attrs : List Text) (ts : List Token) :
    Except Report (Parsed Statement) :=
  match sc.name .missingEnumName ts with
  | .error e => .error e
  | .ok (n, r1) =>
    match sc.underlyingType r1 with
    | .error e => .error e
    | .ok (u, r2) =>
      match skipBlank r2 with
      | [] => .error (sc.report (.missingEnumBody n none) [])
      | t :: r3 =>
        if t.kind = .leftBrace then
          match sc.members n r3 with
          | .error e => .error e
          | .ok (ms, close, rest) =>
            .ok (sc.parsed (.enumeration ⟨n, ms, attrs, u⟩) first close rest)
        else .error (sc.reportToken (.missingEnumBody n (some t.text)) t)

theorem enumDef_length {sc : Script} {first : Token} {attrs : List Text} {ts : List Token}
    {p : Parsed Statement} (h : sc.enumDef first attrs ts = .ok p) :
    p.rest.length < ts.length := by
  unfold enumDef at h
  split at h
  · simp at h
  · next n r1 hn =>
    split at h
    · simp at h
    · next u r2 hu =>
      have h1 := name_length hn
      have h2 := underlyingType_length hu
      have h3 := skipBlank_length r2
      split at h
      · simp at h
      · next t r3 hb =>
        rw [hb] at h3
        simp only [List.length_cons] at h3
        split at h
        · split at h
          · simp at h
          · next hm =>
            cases h
            have := members_length hm
            simp only [parsed]; omega
        · simp at h

end ScriptModule.Script
