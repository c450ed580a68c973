/-
  ScriptModule/Script/Function.lean
  =================================
  **Functions.**  A name, which may have a scope in front, parameters in parentheses if
  there are any, and a body between braces that is kept as it is.
-/
import ScriptModule.Script.Basic

namespace ScriptModule.Script

/-- The name of a function; a scope in front of a colon is left out. -/
def functionName (sc : Script) (ts : List Token) : Except Report (Text × List Token) :=
  match sc.name .missingFunctionName ts with
  | .error e => .error e
  | .ok (n, []) => .ok (n, [])
  | .ok (n, t :: r) =>
    if t.kind = .colon then sc.name .missingScopedName r else .ok (n, t :: r)

theorem functionName_length {sc : Script} {ts rest : List Token} {n : Text}
    (h : sc.functionName ts = .ok (n, rest)) : rest.length < ts.length := by
  unfold functionName at h
  split at h
  · simp at h
  · next hn => cases h; exact name_length hn
  · next hn =>
    have h1 := name_length hn
    split at h
    · have := name_length h
      simp only [List.length_cons] at h1; omega
    · cases h; exact h1

/-- The tokens behind a parameter list, if there is one. -/
def skipParameters (sc : Script) (ts : List Token) : Except Report (List Token) :=
  match ts with
  | t :: r =>
    if t.kind = .leftParen then (sc.group t r).map Prod.snd else .ok (t :: r)
  | [] => .ok []

theorem skipParameters_length {sc : Script} {ts rest : List Token}
    (h : sc.skipParameters ts = .ok rest) : rest.length ≤ ts.length := by
  unfold skipParameters at h
  split at h
  · next t r =>
    split at h
    · cases hg : sc.group t r with
      | error e => rw [hg] at h; simp [Except.map] at h
      | ok p =>
        rw [hg] at h
        simp only [Except.map, Except.ok.injEq] at h
        subst h
        exact Nat.le_succ_of_le (Nat.le_of_lt (group_length (t := p.1) hg))
    · cases h; exact Nat.le_refl _
  · cases h; exact Nat.le_refl _

def functionDef (sc : Script) (first : Token) (ts : List Token) :
    Except Report (Parsed Statement) :=
  match sc.functionName ts with
  | .error e => .error e
  | .ok (n, r1) =>
    match sc.skipParameters r1 with
    | .error e => .error e
    | .ok r2 =>
      match sc.body (.missingFunctionBody n) r2 with
      | .error e => .error e
      | .ok (close, rest) => .ok (sc.parsed (.function n) first close rest)

theorem functionDef_length {sc : Script} {first : Token} {ts : List Token}
    {p : Parsed Statement} (h : sc.functionDef first ts = .ok p) :
    p.rest.length < ts.length := by
  unfold functionDef at h
  split at h
  · simp at h
  · next hn =>
    split at h
    · simp at h
    · next hp =>
      split at h
      · simp at h
      · next hb =>
        cases h
        have h1 := functionName_length hn
        have h2 := skipParameters_length hp
        have h3 := body_length hb
        simp only [parsed]; omega

end ScriptModule.Script
