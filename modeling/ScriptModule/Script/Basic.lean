/-
  ScriptModule/Script/Basic.lean
  ==============================
  **Scripts.**  A source with its tokens.  A parser looks at the tokens that are
  left and gives back what it has read, the last token of it, and the tokens
  behind it; the end of the tokens is the end of the file.
-/
import ScriptModule.Statement
import ScriptModule.Token.Group
import ScriptModule.Token.Scan

namespace ScriptModule

/-- A source file and its tokens. -/
structure Script where
  filename : Option Text
  source : Text
  tokens : List Token
  stop : Position

namespace Script

def ofSource (filename : Option Text) (source : Text) : Except Report Script :=
  (scanFile filename source).map fun s => ⟨filename, source, s.tokens, s.stop⟩

/-- Whether the script has a parameter block of its own, and so becomes a function. -/
def isEntryPoint (sc : Script) : Bool := (paramIndex? sc.tokens).isSome

/-! ### Pieces of the source -/

/-- The source from the start of one token to the end of another. -/
def slice (sc : Script) (first last : Token) : Text :=
  (sc.source.drop first.start.offset).take (last.stop.offset - first.start.offset)

/-- The lines and columns from the start of one token to the end of another. -/
def span (first last : Token) : Span :=
  ⟨first.start.line, first.start.column, last.stop.line, last.stop.column⟩

/-! ### Reports -/

def reportToken (sc : Script) (p : Problem) (t : Token) : Report where
  problem := p
  filename := sc.filename
  line := some t.start.line
  column := some t.start.column
  text := some ((sc.source.drop t.start.offset).take sampleLength)

/-- A report about the first of the tokens that are left, or about the end of the file. -/
def report (sc : Script) (p : Problem) : List Token → Report
  | t :: _ => sc.reportToken p t
  | [] => {
      problem := p
      filename := sc.filename
      line := some sc.stop.line
      column := some sc.stop.column }

/-- The text of the first of the tokens that are left. -/
def found? (ts : List Token) : Option Text := ts.head?.map Token.text

/-! ### Parsers -/

/-- What a parser has read. -/
structure Parsed (α : Type) where
  value : α
  last : Token
  rest : List Token

/-- Whether the first of the tokens that are left is of a kind. -/
def nextIs (k : TokenKind) : List Token → Bool
  | t :: _ => t.kind == k
  | [] => false

/-- The tokens behind line ends and remarks. -/
def skipBlank (ts : List Token) : List Token :=
  ts.dropWhile fun t => t.kind == .newline || t.isRemark

def name (sc : Script) (problem : Option Text → Problem) :
    List Token → Except Report (Text × List Token)
  | t :: ts =>
    if t.kind.isName then .ok (t.text, ts)
    else .error (sc.reportToken (problem (some t.text)) t)
  | [] => .error (sc.report (problem none) [])

/-- A group in brackets behind its opener: the closer and what follows it. -/
def group (sc : Script) (opener : Token) (ts : List Token) :
    Except Report (Token × List Token) :=
  match groupEnd? 0 ts with
  | some r => .ok r
  | none => .error (sc.reportToken (.unterminatedGroup opener.text) opener)

/-- A body in braces, which may start on a later line. -/
def body (sc : Script) (problem : Option Text → Problem) (ts : List Token) :
    Except Report (Token × List Token) :=
  match skipBlank ts with
  | t :: rest =>
    if t.kind = .leftBrace then sc.group t rest
    else .error (sc.reportToken (problem (some t.text)) t)
  | [] => .error (sc.report (problem none) [])

/-! ### Parsers leave fewer tokens -/

theorem skipBlank_length (ts : List Token) : (skipBlank ts).length ≤ ts.length :=
  (List.dropWhile_suffix _).length_le

theorem name_length {sc : Script} {problem : Option Text → Problem} {ts rest : List Token}
    {n : Text} (h : sc.name problem ts = .ok (n, rest)) : rest.length < ts.length := by
  cases ts with
  | nil => simp [name] at h
  | cons t ts =>
    simp only [name] at h
    split at h
    · obtain ⟨-, rfl⟩ : t.text = n ∧ ts = rest := by simpa using h
      exact Nat.lt_succ_self _
    · simp at h

theorem group_length {sc : Script} {opener t : Token} {ts rest : List Token}
    (h : sc.group opener ts = .ok (t, rest)) : rest.length < ts.length := by
  unfold group at h
  split at h
  · next r hr => cases h; exact groupEnd?_length hr
  · simp at h

theorem body_length {sc : Script} {problem : Option Text → Problem} {t : Token}
    {ts rest : List Token} (h : sc.body problem ts = .ok (t, rest)) :
    rest.length < ts.length := by
  unfold body at h
  have hs := skipBlank_length ts
  split at h
  · next u us hu =>
    rw [hu] at hs
    split at h
    · exact Nat.lt_trans (group_length h) (Nat.lt_of_succ_le hs)
    · simp at h
  · simp at h

/-- A parsed statement with its content, from its first to its last token. -/
def parsed (sc : Script) (content : Content) (first last : Token) (rest : List Token) :
    Parsed Statement :=
  ⟨{ content := content
     filename := sc.filename
     span := some (span first last)
     text := sc.slice first last }, last, rest⟩

end Script
end ScriptModule
