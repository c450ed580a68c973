/-
  ScriptModule/Script/Assignment.lean
  ===================================
  **Assignments.**  A variable, an equals sign, and an expression, which goes on to the
  end of a line that can be its last.
-/
import ScriptModule.Script.Basic

namespace ScriptModule.Script

/-- The bare name of a variable: without dollar sign, braces and scope. -/
def variableName (target : Text) : Text :=
  let bare := match target.drop 1 with
    | '{' :: r => if r.getLast? = some '}' then r.dropLast else '{' :: r
    | t => t
  Text.afterLast ':' bare

/-- Kinds at the end of a line that continue an expression on the next line. -/
def continuesLine : Option TokenKind → Bool
  | some k => k == .pipe || k == .comma || k == .equals || k == .operator
  | none => false

/-- The tokens of an expression, of its groups the first and last only, and the tokens
    behind it.  `before` is the kind of the last token that is not a comment. -/
def expression (sc : Script) (before : Option TokenKind) (ts : List Token) :
    Except Report (List Token × List Token) :=
  match ts with
  | [] => .ok ([], [])
  | t :: r =>
    if t.kind == .semicolon || (t.kind == .newline && !continuesLine before) then
      .ok ([], t :: r)
    else if t.kind.isOpener then
      match _h : sc.group t r with
      | .error e => .error e
      | .ok (close, rest) =>
        match sc.expression (some close.kind) rest with
        | .error e => .error e
        | .ok (es, rest') => .ok (t :: close :: es, rest')
    else
      match sc.expression (lastKind before t) r with
      | .error e => .error e
      | .ok (es, rest') => .ok (t :: es, rest')
termination_by ts.length
decreasing_by
  · have := group_length _h; simp only [List.length_cons]; omega
  · simp

theorem expression_length {sc : Script} {before : Option TokenKind} {ts rest es : List Token}
    (h : sc.expression before ts = .ok (es, rest)) : rest.length ≤ ts.length := by
  induction n : ts.length using Nat.strongRecOn generalizing ts es before with
  | ind n ih =>
    unfold expression at h
    split at h
    · cases h; simp
    · next t r =>
      simp only [List.length_cons] at n
      split at h
      · cases h; simp only [List.length_cons]; omega
      · split at h
        · split at h
          · simp at h
          · next hg =>
            have h1 := group_length hg
            split at h
            · simp at h
            · next he =>
              cases h
              have := ih _ (by omega) he rfl
              omega
        · split at h
          · simp at h
          · next he =>
            cases h
            have := ih _ (by omega) he rfl
            omega

/-- Tokens that an expression may start and end with. -/
def isSignificant (t : Token) : Bool := t.kind != .comment && t.kind != .newline

def assignment (sc : Script) (first target : Token) (attrs : List Text) (ts : List Token) :
    Except Report (Parsed Statement) :=
  match ts with
  | [] => .error (sc.report (.missingAssignment target.text) [])
  | e :: r =>
    if e.kind = .equals then
      match sc.expression none (skipBlank r) with
      | .error err => .error err
      | .ok (es, rest) =>
        match es.filter isSignificant with
        | [] => .error (sc.report (.missingExpression target.text) rest)
        | start :: more =>
          let last := more.getLast?.getD start
          .ok (sc.parsed (.assignment {
            name := variableName target.text
            target := target.text
            expression := sc.slice start last
            typeConstraint := if attrs.isEmpty then none else some attrs.flatten }) first last rest)
    else .error (sc.reportToken (.missingAssignment target.text) e)

theorem assignment_length {sc : Script} {first target : Token} {attrs : List Text}
    {ts : List Token} {p : Parsed Statement}
    (h : sc.assignment first target attrs ts = .ok p) : p.rest.length < ts.length := by
  unfold assignment at h
  split at h
  · simp at h
  · next e r =>
    split at h
    · split at h
      · simp at h
      · next he =>
        split at h
        · simp at h
        · cases h
          have h1 := expression_length he
          have h2 := skipBlank_length r
          simp only [parsed, List.length_cons]; omega
    · simp at h

end ScriptModule.Script
