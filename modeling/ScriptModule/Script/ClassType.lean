/-
  ScriptModule/Script/ClassType.lean
  ==================================
  **Classes.**  A name, base types behind a colon if there are any, and a body between
  braces that is kept as it is.
-/
import ScriptModule.Script.Basic

namespace ScriptModule.Script

def nesting (k : TokenKind) : Int :=
  if k.isOpener then 1 else if k.isCloser then -1 else 0

/-- A base type that ends here, if anything has been read of it. -/
def pending (base : Text) : List Text := if base.isEmpty then [] else [base]

/-- The base types of a class: token texts between commas outside all brackets, up to
    the body or the end of the line.  `base` is what has been read of the current one. -/
def baseTypesFrom (depth : Int) (base : Text) : List Token → List Text × List Token
  | [] => (pending base, [])
  | t :: ts =>
    if depth = 0 && (t.kind == .leftBrace || t.kind == .newline) then (pending base, t :: ts)
    else if t.kind = .comma && depth = 0 then
      (base :: (baseTypesFrom 0 [] ts).1, (baseTypesFrom 0 [] ts).2)
    else baseTypesFrom (depth + nesting t.kind) (base ++ t.text) ts

theorem baseTypesFrom_length (depth : Int) (base : Text) (ts : List Token) :
    (baseTypesFrom depth base ts).2.length ≤ ts.length := by
  induction ts generalizing depth base with
  | nil => simp [baseTypesFrom]
  | cons t ts ih =>
    unfold baseTypesFrom
    split
    · exact Nat.le_refl _
    · split
      · exact Nat.le_succ_of_le (ih 0 [])
      · exact Nat.le_succ_of_le (ih _ _)

/-- The base types of a class, if a colon follows its name; none may be empty. -/
def baseTypes (sc : Script) (cls : Text) (ts : List Token) :
    Except Report (List Text × List Token) :=
  match ts with
  | t :: r =>
    if t.kind = .colon then
      let bases := baseTypesFrom 0 [] r
      if bases.1.isEmpty || bases.1.any (·.isEmpty) then
        .error (sc.report (.missingBaseTypes cls) bases.2)
      else .ok bases
    else .ok ([], t :: r)
  | [] => .ok ([], [])

theorem baseTypes_length {sc : Script} {cls : Text} {ts rest : List Token} {bs : List Text}
    (h : sc.baseTypes cls ts = .ok (bs, rest)) : rest.length ≤ ts.length := by
  unfold baseTypes at h
  split at h
  · next t r =>
    split at h
    · simp only at h
      split at h
      · simp at h
      · have := baseTypesFrom_length 0 [] r
        rw [Except.ok.inj h] at this
        exact Nat.le_succ_of_le this
    · cases h; exact Nat.le_refl _
  · cases h; exact Nat.le_refl _

def classDef (sc : Script) (first : Token) (ts : List Token) :
    Except Report (Parsed Statement) :=
  match sc.name .missingClassName ts with
  | .error e => .error e
  | .ok (n, r1) =>
    match sc.baseTypes n r1 with
    | .error e => .error e
    | .ok (bs, r2) =>
      match sc.body (.missingClassBody n) r2 with
      | .error e => .error e
      | .ok (close, rest) => .ok (sc.parsed (.classType ⟨n, bs⟩) first close rest)

theorem classDef_length {sc : Script} {first : Token} {ts : List Token}
    {p : Parsed Statement} (h : sc.classDef first ts = .ok p) : p.rest.length < ts.length := by
  unfold classDef at h
  split at h
  · simp at h
  · next hn =>
    split at h
    · simp at h
    · next hb =>
      split at h
      · simp at h
      · next hg =>
        cases h
        have h1 := name_length hn
        have h2 := baseTypes_length hb
        have h3 := body_length hg
        simp only [parsed]; omega

end ScriptModule.Script
