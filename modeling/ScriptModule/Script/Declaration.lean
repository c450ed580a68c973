/-
  ScriptModule/Script/Declaration.lean
  ====================================
  **Definitions.**  Enumerations, classes, functions and assignments at the top level of
  a script.  Attributes in front belong to an enumeration, are the type constraint of a
  variable, and are part of the text of a class.
-/
import ScriptModule.Script.Assignment
import ScriptModule.Script.ClassType
import ScriptModule.Script.Enumeration
import ScriptModule.Script.Function

namespace ScriptModule.Script

/-! ### Attributes -/

/-- The attributes in front of a definition.  Line ends and remarks may follow one,
    unless the next token is a variable. -/
def attributes (sc : Script) (ts : List Token) : Except Report (List Text × List Token) :=
  match ts with
  | [] => .ok ([], [])
  | t :: r =>
    if t.kind = .leftBracket then
      match _h : sc.group t r with
      | .error e => .error e
      | .ok (close, rest) =>
        match sc.attributes (if nextIs .variable rest then rest else skipBlank rest) with
        | .error e => .error e
        | .ok (as, rest') => .ok (sc.slice t close :: as, rest')
    else .ok ([], t :: r)
termination_by ts.length
decreasing_by
  have h1 := group_length _h
  have h2 := skipBlank_length rest
  simp only [List.length_cons]
  split <;> omega

theorem attributes_length {sc : Script} {ts rest : List Token} {as : List Text}
    (h : sc.attributes ts = .ok (as, rest)) : rest.length ≤ ts.length := by
  induction n : ts.length using Nat.strongRecOn generalizing ts as with
  | ind n ih =>
    unfold attributes at h
    split at h
    · cases h; simp
    · next t r =>
      simp only [List.length_cons] at n
      split at h
      · split at h
        · simp at h
        · next close mid hg =>
          have h1 := group_length hg
          have h2 := skipBlank_length mid
          split at h
          · simp at h
          · next as' rest' ha =>
            cases h
            have := ih _ (by split <;> omega) ha rfl
            have h3 : (if nextIs .variable mid then mid else skipBlank mid).length ≤ mid.length := by
              split <;> omega
            omega
      · cases h; simp only [List.length_cons]; omega

/-! ### Definitions -/

/-- The definition that starts with the token `first`. -/
def declaration (sc : Script) (first : Token) (ts : List Token) :
    Except Report (Parsed Statement) :=
  match sc.attributes (first :: ts) with
  | .error e => .error e
  | .ok (_, []) => .error (sc.reportToken .unsupportedStatement first)
  | .ok (attrs, t :: r) =>
    if t.kind = .enumWord then sc.enumDef first attrs r
    else if t.kind = .classWord then sc.classDef first r
    else if t.kind = .variable then sc.assignment first t attrs r
    else if t.kind = .functionWord && attrs.isEmpty then sc.functionDef first r
    else .error (sc.reportToken .unsupportedStatement first)

theorem declaration_length {sc : Script} {first : Token} {ts : List Token}
    {p : Parsed Statement} (h : sc.declaration first ts = .ok p) :
    p.rest.length ≤ ts.length := by
  unfold declaration at h
  split at h
  · simp at h
  · simp at h
  · next ha =>
    have h1 := attributes_length ha
    simp only [List.length_cons] at h1
    split at h
    · have := enumDef_length h; omega
    · split at h
      · have := classDef_length h; omega
      · split at h
        · have := assignment_length h; omega
        · split at h
          · have := functionDef_length h; omega
          · simp at h

end ScriptModule.Script
