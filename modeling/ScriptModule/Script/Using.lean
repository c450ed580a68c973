/-
  ScriptModule/Script/Using.lean
  ==============================
  **Import directives.**  The keyword, the kind of import, and a name that runs to
  the end of the line, to a semicolon or to a comment.
-/
import ScriptModule.Script.Basic

namespace ScriptModule.Script

def importKind (word : Text) : ImportKind :=
  let w := Text.fold word
  if w = "namespace".toList then .names
  else if w = "assembly".toList then .assembly
  else if w = "module".toList then .module
  else .unknown

/-- Kinds that end a directive. -/
def endsDirective (k : TokenKind) : Bool := k == .newline || k == .semicolon

/-- Tokens that belong to the name of an import. -/
def isNamePart (t : Token) : Bool := !endsDirective t.kind && t.kind != .comment

/-- The name that tokens from `first` to `last` spell: a single string stands for its
    content. -/
def importName (sc : Script) (first last : Token) (alone : Bool) : Text :=
  if alone && first.kind == .string then first.value.getD []
  else Text.trim (sc.slice first last)

/-- The directive whose keyword is `keyword`, read from the tokens behind it. -/
def usingDirective (sc : Script) (keyword : Token) (ts : List Token) :
    Except Report (Parsed Statement) :=
  match ts with
  | [] => .error (sc.report .missingImportKind [])
  | k :: r =>
    if endsDirective k.kind then .error (sc.reportToken .missingImportKind k)
    else
      let rest := r.dropWhile isNamePart
      match r.takeWhile isNamePart with
      | [] => .error (sc.report (.missingImportName k.text) rest)
      | first :: more =>
        let last := more.getLast?.getD first
        .ok ⟨{
            content := .importing ⟨importKind k.text, sc.importName first last more.isEmpty⟩
            filename := sc.filename
            span := some (span keyword last)
            text := sc.slice keyword last }, last, rest⟩

theorem usingDirective_length {sc : Script} {keyword : Token} {ts : List Token}
    {p : Parsed Statement} (h : sc.usingDirective keyword ts = .ok p) :
    p.rest.length ≤ ts.length := by
  unfold usingDirective at h
  split at h
  · simp at h
  · next k r =>
    split at h
    · simp at h
    · split at h
      · simp at h
      · cases h
        have := (List.dropWhile_suffix (l := r) isNamePart).length_le
        simp only [List.length_cons]; omega

end ScriptModule.Script
