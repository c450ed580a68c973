/-
  ScriptModule/Token/Scan.lean
  ============================
  **Scanning.**  A source is cut into tokens from left to right: blanks are
  skipped, then one lexeme is read, and so on to the end.  Each step takes at
  least one character, so the number of characters left bounds the scan.
-/
import ScriptModule.Report.Basic
import ScriptModule.Token.Lexeme

namespace ScriptModule

/-! ### Tokens of a text -/

/-- The tokens of a source and the place of its end. -/
structure Scan where
  tokens : List Token
  stop : Position
deriving DecidableEq, Repr

/-- Where a scan fails, on what characters, and why. -/
structure ScanError where
  problem : Problem
  place : Position
  rest : Text
deriving DecidableEq, Repr

/-- Whether a dash behind a token of this kind may be a sign; at the start it may. -/
def signMayFollow : Option TokenKind → Bool
  | none => true
  | some k => k.precedesSign

/-- The last kind that decides how the next token is read: comments do not count. -/
def lastKind (before : Option TokenKind) (t : Token) : Option TokenKind :=
  if t.kind = .comment then before else some t.kind

def Lexeme.token (l : Lexeme) (p : Position) (c : Char) (r : Text) : Token :=
  ⟨l.kind, l.text c r, p, p.advance (c :: r.take l.extra), l.value⟩

/-- Scans the text at a place; `before` is the kind of the last token in front of it. -/
def scanFrom (before : Option TokenKind) (p : Position) (t : Text) : Except ScanError Scan :=
  match t with
  | [] => .ok ⟨[], p⟩
  | c :: r =>
    match Lexeme.gapLength (c :: r) with
    | n + 1 => scanFrom before (p.advance (c :: r.take n)) (r.drop n)
    | 0 =>
      match Lexeme.read (signMayFollow before) c r with
      | .error e => .error ⟨e, p, c :: r⟩
      | .ok l =>
        let tok := l.token p c r
        match scanFrom (lastKind before tok) tok.stop (r.drop l.extra) with
        | .error e => .error e
        | .ok s => .ok ⟨tok :: s.tokens, s.stop⟩
termination_by t.length
decreasing_by all_goals simp only [List.length_drop, List.length_cons]; omega

def scan (source : Text) : Except ScanError Scan := scanFrom none Position.start source

/-! ### Failures -/

/-- Characters of the source shown with a failure. -/
def sampleLength : Nat := 80

def ScanError.report (filename : Text) (e : ScanError) : Report where
  problem := e.problem
  filename := some filename
  line := some e.place.line
  column := some e.place.column
  text := some (e.rest.take sampleLength)

/-- The name that a source without a file name has in the reports of its scan. -/
def unnamedSource : Text := "<input>"

/-- Scans the source of a file; a missing or empty name is replaced. -/
def scanFile (filename : Option Text) (source : Text) : Except Report Scan :=
  let name := match filename with
    | some (c :: f) => c :: f
    | _ => unnamedSource
  (scan source).mapError (ScanError.report name)

end ScriptModule
