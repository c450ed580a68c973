/-
  ScriptModule/Script/EntryPoint.lean
  ===================================
  **Entry points.**  A script with a parameter block of its own becomes a function
  named after its file.  The directives in front of the block are taken out of the
  body, a line at a time, and merged for the whole module.  An alias attribute
  directly in front of the block names other ways to call the function.
-/
import ScriptModule.KnownAliases
import ScriptModule.Outcome
import ScriptModule.Script.Requirement
import ScriptModule.Script.Using

namespace ScriptModule.Script

/-! ### Directives -/

/-- A directive and the offsets that it takes up in the source. -/
structure Directive where
  statement : Statement
  start : Nat
  stop : Nat

/-- The directives that start among the first `n` tokens. -/
def directives (sc : Script) (n : Nat) (ts : List Token) : Except Report (List Directive) :=
  match n, ts with
  | 0, _ => .ok []
  | _, [] => .ok []
  | n + 1, t :: r =>
    if t.kind = .usingWord then
      match sc.usingDirective t r with
      | .error e => .error e
      | .ok p =>
        (sc.directives (n - (r.length - p.rest.length)) p.rest).map
          (⟨p.value, t.start.offset, p.last.stop.offset⟩ :: ·)
    else if t.isRequirement then
      match sc.requirement t with
      | .error e => .error e
      | .ok s => (sc.directives n r).map (⟨s, t.start.offset, t.stop.offset⟩ :: ·)
    else sc.directives n r
termination_by n
decreasing_by all_goals omega

/-! ### The body -/

/-- The offset at which the line of an offset starts. -/
def lineStart (source : Text) (offset : Nat) : Nat :=
  offset - (Text.afterLast '\n' (source.take offset)).length

/-- The offset behind the line of an offset, its line end included. -/
def lineStop (source : Text) (offset : Nat) : Nat :=
  offset +
    match (source.drop offset).dropWhile (· ≠ '\n') with
    | [] => source.length - offset
    | _ :: _ => ((source.drop offset).takeWhile (· ≠ '\n')).length + 1

/-- The offsets at which the lines of a directive start and stop. -/
def lineRange (source : Text) (d : Directive) : Nat × Nat :=
  (lineStart source d.start, lineStop source d.stop)

/-- Puts a range in front of the first one that does not come before it. -/
def insertRange (r : Nat × Nat) : List (Nat × Nat) → List (Nat × Nat)
  | [] => [r]
  | s :: rs =>
    if s.1 < r.1 ∨ (s.1 = r.1 ∧ s.2 < r.2) then s :: insertRange r rs else r :: s :: rs

/-- Ranges by their starts, and then by their stops. -/
def sortRanges (rs : List (Nat × Nat)) : List (Nat × Nat) := rs.foldr insertRange []

/-- Joins a range with those behind it that it overlaps or touches. -/
def joinRanges (r : Nat × Nat) : List (Nat × Nat) → List (Nat × Nat)
  | [] => [r]
  | s :: rs =>
    if s.1 ≤ r.2 then joinRanges (r.1, max s.2 r.2) rs else r :: joinRanges s rs

/-- The ranges that cover the same offsets, in order and apart from each other. -/
def mergeRanges (rs : List (Nat × Nat)) : List (Nat × Nat) :=
  match sortRanges rs with
  | [] => []
  | r :: rs => joinRanges r rs

/-- What is left of the source from an offset on, without the ranges. -/
def withoutRanges (source : Text) (pos : Nat) : List (Nat × Nat) → Text
  | [] => source.drop pos
  | r :: rs => (source.drop pos).take (r.1 - pos) ++ withoutRanges source r.2 rs

/-- The source without the lines of the directives. -/
def withoutDirectives (source : Text) (ds : List Directive) : Text :=
  withoutRanges source 0 (mergeRanges (ds.map (lineRange source)))

/-- The text without the lines at its front that hold spaces and tabs only. -/
def dropBlankLines (t : Text) : Text :=
  match _h : t.dropWhile fun c => c = ' ' || c = '\t' with
  | '\n' :: r => dropBlankLines r
  | _ => t
termination_by t.length
decreasing_by
  have := (List.dropWhile_suffix (l := t) fun c => c = ' ' || c = '\t').length_le
  rw [_h] at this
  exact this

/-- The body of the function that the script becomes. -/
def functionBody (source : Text) (ds : List Directive) : Text :=
  Text.trimEnd (dropBlankLines (withoutDirectives source ds))

/-! ### Attributes in front of the parameter block -/

/-- The tokens of a bracketed group read backwards from behind its closer, down to
    its opener, and the tokens in front of it; other brackets do not count. -/
def groupStart? (depth : Nat) : List Token → Option (List Token × List Token)
  | [] => none
  | t :: ts =>
    let more (d : Nat) := (groupStart? d ts).map fun (g, rest) => (t :: g, rest)
    if t.kind = .rightBracket then more (depth + 1)
    else if t.kind = .leftBracket then
      match depth with
      | 0 => some ([t], ts)
      | d + 1 => more d
    else more depth

theorem groupStart?_length {depth : Nat} {ts g rest : List Token}
    (h : groupStart? depth ts = some (g, rest)) : rest.length < ts.length := by
  induction ts generalizing depth g with
  | nil => simp [groupStart?] at h
  | cons t ts ih =>
    have step : ∀ {d},
        ((groupStart? d ts).map fun (p : List Token × List Token) => (t :: p.1, p.2))
          = some (g, rest) → rest.length < (t :: ts).length := by
      intro d hd
      obtain ⟨p, hp, hq⟩ := Option.map_eq_some_iff.mp hd
      cases hq
      exact Nat.lt_succ_of_lt (ih hp)
    simp only [groupStart?] at h
    split at h
    · exact step h
    · split at h
      · split at h
        · cases h; exact Nat.lt_succ_self _
        · exact step h
      · exact step h

/-- The bracketed groups at the front of tokens that are read backwards, the nearest
    first, each in source order.  Line ends and remarks may stand between them. -/
def attributeGroups (back : List Token) : List (List Token) :=
  match _hd : skipBlank back with
  | [] => []
  | t :: r =>
    if t.kind = .rightBracket then
      match _h : groupStart? 0 r with
      | none => []
      | some (g, rest) => (t :: g).reverse :: attributeGroups rest
    else []
termination_by back.length
decreasing_by
  have h1 := groupStart?_length _h
  have h2 := skipBlank_length back
  rw [_hd] at h2
  simp only [List.length_cons] at h2
  omega

/-! ### Aliases -/

/-- The tokens behind line ends and comments. -/
def skipLines (ts : List Token) : List Token :=
  ts.dropWhile fun t => t.kind == .newline || t.kind == .comment

def aliasOf? (t : Token) : Option AliasDeclaration :=
  if t.kind = .string then some ⟨t.value.getD [], t.start.line, t.start.column⟩
  else if t.kind = .word then some ⟨t.text, t.start.line, t.start.column⟩
  else none

/-- A token that does not belong in an alias list; the last token of the attribute
    means that the list has no end. -/
def aliasFault (sc : Script) (opener t : Token) (rest : List Token) : Report :=
  if rest.isEmpty then sc.reportToken .unterminatedAliasGroup opener
  else sc.reportToken (.unexpectedAlias (some t.text)) t

/-- One or more names with commas between them, and the tokens behind the closing
    parenthesis. -/
def aliasNames (sc : Script) (opener : Token) (ts : List Token) :
    Except Report (List AliasDeclaration × List Token) :=
  match _h1 : skipLines ts with
  | [] => .error (sc.reportToken .unterminatedAliasGroup opener)
  | t :: r =>
    match aliasOf? t with
    | none => .error (sc.aliasFault opener t r)
    | some a =>
      match _h2 : skipLines r with
      | [] => .error (sc.reportToken .unterminatedAliasGroup opener)
      | u :: more =>
        if u.kind = .comma then
          (sc.aliasNames opener more).map fun (as, rest) => (a :: as, rest)
        else if u.kind = .rightParen then .ok ([a], more)
        else .error (sc.aliasFault opener u more)
termination_by ts.length
decreasing_by
  have h3 := (List.dropWhile_suffix (l := ts) fun t => t.kind == .newline || t.kind == .comment).length_le
  have h4 := (List.dropWhile_suffix (l := r) fun t => t.kind == .newline || t.kind == .comment).length_le
  unfold skipLines at _h1 _h2
  rw [_h1] at h3
  rw [_h2] at h4
  simp only [List.length_cons] at h3 h4
  omega

/-- A list of names behind its opening parenthesis; it may be empty. -/
def aliasList (sc : Script) (opener : Token) (ts : List Token) :
    Except Report (List AliasDeclaration × List Token) :=
  match skipLines ts with
  | [] => .error (sc.reportToken .unterminatedAliasGroup opener)
  | t :: r => if t.kind = .rightParen then .ok ([], r) else sc.aliasNames opener (t :: r)

/-- The tokens behind the end of an array of names, if the list is one. -/
def arrayEnd (sc : Script) (opener : Token) (nested : Bool) (ts : List Token) :
    Except Report (List Token) :=
  if nested then
    match skipLines ts with
    | t :: r =>
      if t.kind = .rightParen then .ok r
      else .error (sc.reportToken .unterminatedAliasGroup opener)
    | [] => .error (sc.reportToken .unterminatedAliasGroup opener)
  else .ok ts

/-- The names that an alias attribute declares: the tokens behind its name, from the
    opening parenthesis to the closing bracket. -/
def aliasAttribute (sc : Script) (ts : List Token) : Except Report (List AliasDeclaration) :=
  match ts with
  | [] => .ok []
  | opener :: r =>
    if opener.kind = .leftParen then do
      let nested := nextIs .atParen r
      let (as, rest) ← sc.aliasList opener (if nested then r.drop 1 else r)
      let rest ← sc.arrayEnd opener nested rest
      match skipLines rest with
      | [] => .ok as
      | [_] => .ok as
      | t :: _ => .error (sc.reportToken (.trailingAlias (some t.text)) t)
    else .error (sc.reportToken (.missingAliasList (some opener.text)) opener)

/-- The names that an attribute declares, if it is an alias attribute. -/
def groupAliases (sc : Script) : List Token → Except Report (List AliasDeclaration)
  | _ :: t :: r => if !r.isEmpty && t.isWord "Alias" then sc.aliasAttribute r else .ok []
  | _ => .ok []

/-- The aliases declared by the attributes in front of the token with an index. -/
def aliasesBefore (sc : Script) (index : Nat) : Except Report (List AliasDeclaration) :=
  let groups := (attributeGroups (sc.tokens.take index).reverse).reverse
  (groups.mapM sc.groupAliases).map List.flatten

/-- A warning for each alias that already stands for another command. -/
def shadowWarnings (known : KnownAliases) (sc : Script) (name : Text)
    (as : List AliasDeclaration) : List Report :=
  as.filterMap fun a =>
    match known.target? a.name with
    | some target =>
      if Text.sameName target name then none
      else some {
        problem := .shadowingAlias a.name name target
        filename := sc.filename
        line := some a.line
        column := some a.column }
    | none => none

/-! ### Extraction -/

/-- The last token that is not a line end. -/
def lastToken? (sc : Script) : Option Token :=
  sc.tokens.reverse.find? fun t => t.kind != .newline

/-- From the parameter keyword to the end of the last token. -/
def entrySpan (sc : Script) (param : Token) : Span :=
  let last := sc.lastToken?.getD param
  ⟨param.start.line, param.start.column, last.start.line,
    last.start.column + last.text.length⟩

/-- The entry point that a script becomes under a name, and the warnings about its
    aliases. -/
def extract (known : KnownAliases) (name : Text) (sc : Script) :
    Except Report (EntryPoint × List Report) :=
  match paramIndex? sc.tokens with
  | none => .error { problem := .noParameters name, filename := sc.filename }
  | some i => do
    let ds ← sc.directives i sc.tokens
    let as ← sc.aliasesBefore i
    return ({
      name := name
      body := functionBody sc.source ds
      aliases := as
      directives := ds.map Directive.statement
      filename := sc.filename
      span := sc.tokens[i]?.map sc.entrySpan }, shadowWarnings known sc name as)

/-- A script becomes an entry point exactly if it has a parameter block, and the directives
    and the aliases in front of it can be read. -/
theorem extract_iff {known : KnownAliases} {name : Text} {sc : Script} {e : EntryPoint}
    {ws : List Report} :
    sc.extract known name = .ok (e, ws) ↔
      ∃ i ds as, paramIndex? sc.tokens = some i ∧ sc.directives i sc.tokens = .ok ds ∧
        sc.aliasesBefore i = .ok as ∧
        e = {
          name := name
          body := functionBody sc.source ds
          aliases := as
          directives := ds.map Directive.statement
          filename := sc.filename
          span := sc.tokens[i]?.map sc.entrySpan } ∧
        ws = shadowWarnings known sc name as := by
  unfold extract
  constructor
  · intro h
    split at h
    · cases h
    · next i hi =>
      obtain ⟨ds, hds, h⟩ := bind_eq_ok.mp h
      obtain ⟨as, has, h⟩ := bind_eq_ok.mp h
      cases h
      exact ⟨i, ds, as, hi, hds, has, rfl, rfl⟩
  · rintro ⟨i, ds, as, hi, hds, has, rfl, rfl⟩
    rw [hi]
    exact bind_eq_ok.mpr ⟨ds, hds, bind_eq_ok.mpr ⟨as, has, rfl⟩⟩

end ScriptModule.Script
