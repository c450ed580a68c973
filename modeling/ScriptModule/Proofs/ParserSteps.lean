/-
  ScriptModule/Proofs/ParserSteps.lean
  ====================================
  **One step of a parser.**  The parsers that call themselves, as what they do with the
  first of the tokens that are left: read it, then go on with the tokens behind it.
-/
import ScriptModule.Script.Classify

namespace ScriptModule

namespace Grammar

open Script

/-- The tokens behind an attribute and what may stand between it and the next token. -/
def afterAttribute (ts : List Token) : List Token :=
  if nextIs .variable ts then ts else skipBlank ts

/-- Tokens between statements. -/
def isSeparator (t : Token) : Bool := t.kind == .newline || t.kind == .semicolon || t.isRemark

end Grammar

namespace Script

theorem attributes_bracket (sc : Script) {t : Token} (ht : t.kind = .leftBracket)
    (r : List Token) : sc.attributes (t :: r) = (sc.group t r).bind fun p =>
      (sc.attributes (Grammar.afterAttribute p.2)).map fun q => (sc.slice t p.1 :: q.1, q.2) := by
  rw [Script.attributes, if_pos ht]
  cases sc.group t r with
  | error e => rfl
  | ok p =>
    obtain ⟨close, mid⟩ := p
    dsimp only [Except.bind, Grammar.afterAttribute]
    cases sc.attributes (if nextIs .variable mid then mid else skipBlank mid) <;> rfl

theorem members_eq (sc : Script) (enum : Text) (ts : List Token) :
    sc.members enum ts =
      match ts.dropWhile isMemberGap with
      | [] => .error (sc.report (.missingMember enum none) [])
      | t :: r =>
        if t.kind = .rightBrace then .ok ([], t, r)
        else if t.kind = .leftBracket then (sc.group t r).bind fun p => sc.members enum p.2
        else if t.kind.isName then
          (sc.memberValue t.text r).bind fun p =>
            (sc.members enum p.2).map fun q => (⟨t.text, p.1⟩ :: q.1, q.2)
        else .error (sc.reportToken (.missingMember enum (some t.text)) t) := by
  rw [Script.members]
  cases ts.dropWhile isMemberGap with
  | nil => rfl
  | cons t r =>
    dsimp only
    congr 1
    congr 1
    · cases sc.group t r <;> rfl
    · congr 1
      cases sc.memberValue t.text r with
      | error e => rfl
      | ok p =>
        obtain ⟨value, mid⟩ := p
        dsimp only [Except.bind]
        cases sc.members enum mid <;> rfl

theorem expression_cons (sc : Script) (before : Option TokenKind) (t : Token) (r : List Token) :
    sc.expression before (t :: r) =
      if t.kind == .semicolon || (t.kind == .newline && !continuesLine before) then
        .ok ([], t :: r)
      else if t.kind.isOpener then
        (sc.group t r).bind fun p =>
          (sc.expression (some p.1.kind) p.2).map fun q => (t :: p.1 :: q.1, q.2)
      else (sc.expression (lastKind before t) r).map fun q => (t :: q.1, q.2) := by
  rw [Script.expression]
  congr 1
  congr 1
  · cases sc.group t r with
    | error e => rfl
    | ok p =>
      obtain ⟨close, mid⟩ := p
      dsimp only [Except.bind]
      cases sc.expression (some close.kind) mid <;> rfl
  · cases sc.expression (lastKind before t) r <;> rfl

theorem statementsFrom_cons (sc : Script) (t : Token) (r : List Token) :
    sc.statementsFrom (t :: r) =
      if Grammar.isSeparator t then sc.statementsFrom r
      else if t.kind = .comment then
        (sc.requirement t).bind fun st => (sc.statementsFrom r).map (st :: ·)
      else if t.kind = .usingWord then
        (sc.usingDirective t r).bind fun p => (sc.statementsFrom p.rest).map (p.value :: ·)
      else (sc.declaration t r).bind fun p => (sc.statementsFrom p.rest).map (p.value :: ·) := by
  rw [Script.statementsFrom, Grammar.isSeparator]
  congr 1
  congr 1
  · cases sc.requirement t <;> rfl
  · congr 1
    · cases sc.usingDirective t r <;> rfl
    · cases sc.declaration t r <;> rfl

end Script
end ScriptModule
