/-
  ScriptModule/Proofs/Lowering.lean
  =================================
  **Line ends in front of a source.**  Behind line ends a source is read as it is, further
  down: its tokens, its statements and the reports about it have larger lines and are the
  same otherwise.  There is one exception.  The text in a requirement comment is scanned by
  itself, so a report about its characters counts lines from the comment on and stays
  where it is.
-/
import ScriptModule.Proofs.Composition
import ScriptModule.Proofs.LexicalProblem
import ScriptModule.Proofs.ParserSteps

namespace ScriptModule

open Lexeme

/-! ### Reports further down -/

/-- The same report, so many lines further down. -/
def Report.below (lines : Nat) (r : Report) : Report :=
  { r with line := r.line.map (· + (lines : Int)) }

/-- A report about the tokens of a source, for the source further down.  A lexical problem
    of scanned tokens is one of the text in a comment, and keeps its line. -/
def Report.lowered (lines : Nat) (r : Report) : Report :=
  if r.problem.isLexical then r else r.below lines

/-- What is read from the tokens of a source, read further down. -/
def readBelow {α β : Type} (lines : Nat) (f : α → β) : Except Report α → Except Report β
  | .ok a => .ok (f a)
  | .error r => .error (r.lowered lines)

/-! ### Scans -/

def Scan.moved (offset lines : Nat) (s : Scan) : Scan :=
  ⟨s.tokens.map (Token.moved offset lines), s.stop.moved offset lines⟩

def ScanError.moved (offset lines : Nat) (e : ScanError) : ScanError :=
  { e with place := e.place.moved offset lines }

/-- The outcome of a scan at another place. -/
def scanMoved (offset lines : Nat) : Except ScanError Scan → Except ScanError Scan
  | .ok s => .ok (s.moved offset lines)
  | .error e => .error (e.moved offset lines)

theorem signMayFollow_lastKind {before other : Option TokenKind}
    (hsign : signMayFollow before = signMayFollow other) {t u : Token} (hkind : u.kind = t.kind) :
    signMayFollow (lastKind before t) = signMayFollow (lastKind other u) := by
  rw [lastKind, lastKind, hkind]
  split
  · exact hsign
  · rfl

theorem scanFrom_lexeme {before : Option TokenKind} {place : Position} {c : Char} {r : Text}
    {l : Lexeme} (hgap : gapLength (c :: r) = 0)
    (hread : Lexeme.read (signMayFollow before) c r = .ok l) :
    scanFrom before place (c :: r) =
      (scanFrom (lastKind before (l.token place c r)) (l.token place c r).stop
        (r.drop l.extra)).map fun s => ⟨l.token place c r :: s.tokens, s.stop⟩ := by
  rw [scanFrom, hgap]
  dsimp only
  rw [hread]
  dsimp only
  cases scanFrom (lastKind before (l.token place c r)) _ (r.drop l.extra) <;> rfl

/-- A text is scanned alike at all places, behind all tokens that agree on signs. -/
theorem scanFrom_moved (offset lines : Nat) {before other : Option TokenKind}
    (hsign : signMayFollow before = signMayFollow other) (place : Position) (t : Text) :
    scanFrom other (place.moved offset lines) t =
      scanMoved offset lines (scanFrom before place t) := by
  fun_induction scanFrom before place t generalizing other with
  | case1 before place =>
    rw [scanFrom]
    rfl
  | case2 before place c r n hgap ih =>
    rw [scanFrom, hgap]
    dsimp only
    rw [advance_moved, ih hsign]
  | case3 before place c r hgap e hread =>
    rw [hsign] at hread
    rw [scanFrom, hgap]
    dsimp only
    rw [hread]
    rfl
  | case4 before place c r hgap l hread tok e herror =>
    rename_i ih
    have hkind : (tok.moved offset lines).kind = tok.kind := rfl
    have hrest := ih (signMayFollow_lastKind hsign hkind)
    rw [herror] at hrest
    rw [hsign] at hread
    rw [scanFrom_lexeme hgap hread, token_moved]
    exact congrArg _ hrest
  | case5 before place c r hgap l hread tok s hs =>
    rename_i ih
    have hkind : (tok.moved offset lines).kind = tok.kind := rfl
    have hrest := ih (signMayFollow_lastKind hsign hkind)
    rw [hs] at hrest
    rw [hsign] at hread
    rw [scanFrom_lexeme hgap hread, token_moved]
    exact congrArg _ hrest

/-- The token of a line end in front of a source. -/
def firstNewline : Token := ⟨.newline, ['\n'], Position.start, ⟨1, 2, 1⟩, none⟩

/-- Behind a line end a source is scanned as it is, one character and one line further. -/
theorem scan_newline (source : Text) :
    scan ('\n' :: source) = (scanMoved 1 1 (scan source)).map fun s =>
      ⟨firstNewline :: s.tokens, s.stop⟩ := by
  have hsign : signMayFollow none = signMayFollow (some .newline) := rfl
  have hmoved := scanFrom_moved 1 1 hsign Position.start source
  exact (scanFrom_lexeme (l := ⟨.newline, 0, none⟩) rfl rfl).trans (congrArg _ hmoved)

/-! ### Reports of parsers -/

section

variable {α β γ δ : Type} {lines : Nat} {f : α → γ} {g : β → δ} {x : Except Report α}

theorem readBelow_bind {k : α → Except Report β} {l : γ → Except Report δ}
    (h : ∀ a, x = .ok a → l (f a) = readBelow lines g (k a)) :
    (readBelow lines f x).bind l = readBelow lines g (x.bind k) := by
  cases x with
  | error r => rfl
  | ok a => exact h a rfl

theorem readBelow_map {k : α → β} {l : γ → δ} (h : ∀ a, l (f a) = g (k a)) :
    (readBelow lines f x).map l = readBelow lines g (x.map k) := by
  cases x with
  | error r => rfl
  | ok a => exact congrArg Except.ok (h a)

end

end ScriptModule

namespace ScriptModule.Script

/-- A script with its source further down: the tokens are where they were in the source. -/
structure Lowered (offset lines : Nat) (sc low : Script) : Prop where
  filename : low.filename = sc.filename
  source : ∃ front, low.source = front ++ sc.source ∧ front.length = offset
  stop : low.stop = sc.stop.moved offset lines

/-- What a parser has read, with its tokens at other places. -/
def Parsed.moved (offset lines : Nat) (p : Parsed Statement) : Parsed Statement :=
  ⟨p.value.below lines, p.last.moved offset lines, p.rest.map (Token.moved offset lines)⟩

section

variable {offset lines : Nat} {sc low : Script} (h : Lowered offset lines sc low)

include h

/-! ### Pieces of the source -/

theorem Lowered.drop (place : Position) :
    low.source.drop (place.moved offset lines).offset = sc.source.drop place.offset := by
  obtain ⟨front, hsource, hlength⟩ := h.source
  have hoffset : (place.moved offset lines).offset = front.length + place.offset := by
    rw [hlength]
    exact Nat.add_comm ..
  rw [hsource, hoffset, List.drop_length_add_append]

theorem Lowered.slice (t u : Token) :
    low.slice (t.moved offset lines) (u.moved offset lines) = sc.slice t u := by
  have hlength : (u.moved offset lines).stop.offset - (t.moved offset lines).start.offset =
      u.stop.offset - t.start.offset := Nat.add_sub_add_right ..
  rw [Script.slice, Script.slice, hlength]
  exact congrArg _ (h.drop t.start)

theorem Lowered.reportToken {p : Problem} (hp : p.isLexical = false) (t : Token) :
    low.reportToken p (t.moved offset lines) = (sc.reportToken p t).lowered lines := by
  have hdrop : low.source.drop (t.moved offset lines).start.offset = _ := h.drop t.start
  have hproblem : (sc.reportToken p t).problem.isLexical = false := hp
  rw [Report.lowered, hproblem, Script.reportToken, h.filename, hdrop]
  rfl

theorem Lowered.report {p : Problem} (hp : p.isLexical = false) (ts : List Token) :
    low.report p (ts.map (Token.moved offset lines)) = (sc.report p ts).lowered lines := by
  cases ts with
  | cons t ts => exact h.reportToken hp t
  | nil =>
    have hproblem : (sc.report p []).problem.isLexical = false := hp
    rw [Report.lowered, hproblem, List.map_nil, Script.report, h.filename, h.stop]
    rfl

theorem Lowered.parsed (content : Content) (first last : Token) (rest : List Token) :
    low.parsed content (first.moved offset lines) (last.moved offset lines)
      (rest.map (Token.moved offset lines)) =
        (sc.parsed content first last rest).moved offset lines := by
  rw [Script.parsed, h.filename, h.slice]
  rfl

end

/-! ### Names and groups -/

section

variable (offset lines : Nat)

@[simp] theorem moved_kind (t : Token) : (t.moved offset lines).kind = t.kind := rfl

@[simp] theorem moved_text (t : Token) : (t.moved offset lines).text = t.text := rfl

theorem groupEnd?_moved (depth : Nat) (ts : List Token) :
    groupEnd? depth (ts.map (Token.moved offset lines)) =
      (groupEnd? depth ts).map
        (Prod.map (Token.moved offset lines) (List.map (Token.moved offset lines))) := by
  fun_induction groupEnd? depth ts with
  | case1 => rfl
  | case2 depth t ts hopener ih => exact (if_pos hopener).trans ih
  | case3 t ts hopener hcloser => exact (if_neg hopener).trans (if_pos hcloser)
  | case4 t ts hopener hcloser d ih =>
    exact (if_neg hopener).trans ((if_pos hcloser).trans ih)
  | case5 depth t ts hopener hcloser ih =>
    exact (if_neg hopener).trans ((if_neg hcloser).trans ih)

theorem skipBlank_moved (ts : List Token) :
    skipBlank (ts.map (Token.moved offset lines)) =
      (skipBlank ts).map (Token.moved offset lines) := List.dropWhile_map

theorem nextIs_moved (k : TokenKind) (ts : List Token) :
    nextIs k (ts.map (Token.moved offset lines)) = nextIs k ts := by
  cases ts <;> rfl

theorem getLast?_moved (first : Token) (more : List Token) :
    (more.map (Token.moved offset lines)).getLast?.getD (first.moved offset lines) =
      (more.getLast?.getD first).moved offset lines := by
  rw [List.getLast?_map]
  cases more.getLast? <;> rfl

end

section

variable {offset lines : Nat} {sc low : Script} (h : Lowered offset lines sc low)

include h

theorem Lowered.name {problem : Option Text → Problem}
    (hproblem : ∀ found, (problem found).isLexical = false) (ts : List Token) :
    low.name problem (ts.map (Token.moved offset lines)) =
      readBelow lines (Prod.map id (List.map (Token.moved offset lines)))
        (sc.name problem ts) := by
  cases ts with
  | nil => exact congrArg Except.error (h.report (hproblem none) [])
  | cons t ts =>
    by_cases hname : t.kind.isName = true
    · rw [Script.name, if_pos hname]
      exact if_pos hname
    · rw [Script.name, if_neg hname]
      refine (if_neg hname).trans ?_
      exact congrArg Except.error (h.reportToken (hproblem (some t.text)) t)

theorem Lowered.group (opener : Token) (ts : List Token) :
    low.group (opener.moved offset lines) (ts.map (Token.moved offset lines)) =
      readBelow lines (Prod.map (Token.moved offset lines) (List.map (Token.moved offset lines)))
        (sc.group opener ts) := by
  rw [Script.group, Script.group, groupEnd?_moved]
  cases groupEnd? 0 ts with
  | none => exact congrArg Except.error (h.reportToken rfl opener)
  | some r => rfl

theorem Lowered.body {problem : Option Text → Problem}
    (hproblem : ∀ found, (problem found).isLexical = false) (ts : List Token) :
    low.body problem (ts.map (Token.moved offset lines)) =
      readBelow lines (Prod.map (Token.moved offset lines) (List.map (Token.moved offset lines)))
        (sc.body problem ts) := by
  rw [Script.body, Script.body, skipBlank_moved]
  cases skipBlank ts with
  | nil => exact congrArg Except.error (h.report (hproblem none) [])
  | cons t rest =>
    by_cases hbrace : t.kind = .leftBrace
    · have hgroup := h.group t rest
      simp only [if_pos hbrace]
      exact (if_pos hbrace).trans hgroup
    · simp only [if_neg hbrace]
      refine (if_neg hbrace).trans ?_
      exact congrArg Except.error (h.reportToken (hproblem (some t.text)) t)

end

/-! ### Attributes -/

theorem afterAttribute_moved (offset lines : Nat) (ts : List Token) :
    Grammar.afterAttribute (ts.map (Token.moved offset lines)) =
      (Grammar.afterAttribute ts).map (Token.moved offset lines) := by
  rw [Grammar.afterAttribute, Grammar.afterAttribute, nextIs_moved, skipBlank_moved]
  split <;> rfl

section

variable {offset lines : Nat} {sc low : Script} (h : Lowered offset lines sc low)

include h

theorem Lowered.attributes (ts : List Token) :
    low.attributes (ts.map (Token.moved offset lines)) =
      readBelow lines (Prod.map id (List.map (Token.moved offset lines)))
        (sc.attributes ts) := by
  induction hlength : ts.length using Nat.strongRecOn generalizing ts with
  | ind n ih =>
    cases ts with
    | nil =>
      rw [List.map_nil, Script.attributes, Script.attributes]
      rfl
    | cons t r =>
      by_cases ht : t.kind = .leftBracket
      · have ht' : (t.moved offset lines).kind = .leftBracket := ht
        rw [List.map_cons, attributes_bracket low ht', attributes_bracket sc ht, h.group]
        apply readBelow_bind
        rintro ⟨close, rest⟩ hgroup
        have hshort : (Grammar.afterAttribute rest).length < n := by
          have hafter := (Grammar.afterAttribute_suffix rest).length_le
          have hrest := group_length hgroup
          rw [List.length_cons] at hlength
          omega
        have hrest := ih _ hshort _ rfl
        rw [← afterAttribute_moved] at hrest
        dsimp only [Prod.map]
        rw [hrest]
        apply readBelow_map
        intro q
        rw [h.slice]
        rfl
      · have ht' : ¬ (t.moved offset lines).kind = .leftBracket := ht
        rw [List.map_cons, Script.attributes, if_neg ht', Script.attributes, if_neg ht]
        rfl

/-! ### Enumerations -/

theorem Lowered.underlyingType (ts : List Token) :
    low.underlyingType (ts.map (Token.moved offset lines)) =
      readBelow lines (Prod.map id (List.map (Token.moved offset lines)))
        (sc.underlyingType ts) := by
  cases ts with
  | nil => rfl
  | cons t r =>
    by_cases ht : t.kind = .colon
    · have ht' : (t.moved offset lines).kind = .colon := ht
      rw [List.map_cons, Script.underlyingType, if_pos ht', Script.underlyingType, if_pos ht,
        h.name fun _ => rfl]
      cases sc.name .missingUnderlyingType r <;> rfl
    · have ht' : ¬ (t.moved offset lines).kind = .colon := ht
      rw [List.map_cons, Script.underlyingType, if_neg ht', Script.underlyingType, if_neg ht]
      rfl

theorem Lowered.memberValue (member : Text) (ts : List Token) :
    low.memberValue member (ts.map (Token.moved offset lines)) =
      readBelow lines (Prod.map id (List.map (Token.moved offset lines)))
        (sc.memberValue member ts) := by
  cases ts with
  | nil => rfl
  | cons t r =>
    by_cases ht : t.kind = .equals
    · have ht' : (t.moved offset lines).kind = .equals := ht
      rw [List.map_cons, Script.memberValue, if_pos ht', Script.memberValue, if_pos ht]
      have htake : (r.map (Token.moved offset lines)).takeWhile isValuePart =
          (r.takeWhile isValuePart).map (Token.moved offset lines) := List.takeWhile_map
      have hdrop : (r.map (Token.moved offset lines)).dropWhile isValuePart =
          (r.dropWhile isValuePart).map (Token.moved offset lines) := List.dropWhile_map
      rw [htake, hdrop]
      cases r.takeWhile isValuePart with
      | nil => exact congrArg Except.error (h.report rfl _)
      | cons first more =>
        have hslice : low.slice (first.moved offset lines)
            ((more.map (Token.moved offset lines)).getLast?.getD (first.moved offset lines)) =
              sc.slice first (more.getLast?.getD first) := by
          rw [getLast?_moved, h.slice]
        exact congrArg (fun v => Except.ok (some v, _)) hslice
    · have ht' : ¬ (t.moved offset lines).kind = .equals := ht
      rw [List.map_cons, Script.memberValue, if_neg ht', Script.memberValue, if_neg ht]
      rfl

end

section

variable {offset lines : Nat} {sc low : Script} (h : Lowered offset lines sc low)

include h

theorem Lowered.members (enum : Text) (ts : List Token) :
    low.members enum (ts.map (Token.moved offset lines)) =
      readBelow lines
        (Prod.map id (Prod.map (Token.moved offset lines) (List.map (Token.moved offset lines))))
        (sc.members enum ts) := by
  induction hlength : ts.length using Nat.strongRecOn generalizing ts with
  | ind n ih =>
    have hgaps : (ts.map (Token.moved offset lines)).dropWhile isMemberGap =
        (ts.dropWhile isMemberGap).map (Token.moved offset lines) := List.dropWhile_map
    have hshort := (List.dropWhile_suffix (l := ts) isMemberGap).length_le
    rw [members_eq low, members_eq sc, hgaps]
    cases hgap : ts.dropWhile isMemberGap with
    | nil => exact congrArg Except.error (h.report rfl [])
    | cons t r =>
      rw [hgap, List.length_cons] at hshort
      rw [List.map_cons]
      dsimp only
      rw [moved_kind]
      split
      · rfl
      · split
        · rw [h.group]
          apply readBelow_bind
          rintro ⟨close, rest⟩ hgroup
          have hrest := group_length hgroup
          exact ih rest.length (by omega) rest rfl
        · split
          · rw [moved_text, h.memberValue]
            apply readBelow_bind
            rintro ⟨v, rest⟩ hvalue
            have hrest := memberValue_length hvalue
            dsimp only [Prod.map]
            rw [ih rest.length (by omega) rest rfl]
            exact readBelow_map fun q => rfl
          · exact congrArg Except.error (h.reportToken rfl t)

theorem Lowered.enumDef (first : Token) (attrs : List Text) (ts : List Token) :
    low.enumDef (first.moved offset lines) attrs (ts.map (Token.moved offset lines)) =
      readBelow lines (Parsed.moved offset lines) (sc.enumDef first attrs ts) := by
  rw [Script.enumDef, Script.enumDef, h.name fun _ => rfl]
  rcases sc.name .missingEnumName ts with e | ⟨n, r1⟩
  · rfl
  · dsimp only [readBelow, Prod.map, id]
    rw [h.underlyingType]
    rcases sc.underlyingType r1 with e | ⟨u, r2⟩
    · rfl
    · dsimp only [readBelow, Prod.map, id]
      rw [skipBlank_moved]
      cases skipBlank r2 with
      | nil => exact congrArg Except.error (h.report rfl [])
      | cons t r3 =>
        rw [List.map_cons]
        dsimp only
        rw [moved_kind]
        split
        · rw [h.members]
          rcases sc.members n r3 with e | ⟨ms, close, rest⟩
          · rfl
          · exact congrArg Except.ok (h.parsed _ first close rest)
        · exact congrArg Except.error (h.reportToken rfl t)

/-! ### Classes and functions -/

omit h in
theorem baseTypesFrom_moved (depth : Int) (base : Text) (ts : List Token) :
    baseTypesFrom depth base (ts.map (Token.moved offset lines)) =
      Prod.map id (List.map (Token.moved offset lines)) (baseTypesFrom depth base ts) := by
  induction ts generalizing depth base with
  | nil => rfl
  | cons t ts ih =>
    rw [List.map_cons, baseTypesFrom, baseTypesFrom, moved_kind, moved_text, ih, ih]
    split
    · rfl
    · split <;> rfl

theorem Lowered.baseTypes (cls : Text) (ts : List Token) :
    low.baseTypes cls (ts.map (Token.moved offset lines)) =
      readBelow lines (Prod.map id (List.map (Token.moved offset lines)))
        (sc.baseTypes cls ts) := by
  cases ts with
  | nil => rfl
  | cons t r =>
    rw [List.map_cons, Script.baseTypes, Script.baseTypes, moved_kind, baseTypesFrom_moved]
    split
    · dsimp only [Prod.map, id]
      split
      · exact congrArg Except.error (h.report rfl _)
      · rfl
    · rfl

theorem Lowered.classDef (first : Token) (ts : List Token) :
    low.classDef (first.moved offset lines) (ts.map (Token.moved offset lines)) =
      readBelow lines (Parsed.moved offset lines) (sc.classDef first ts) := by
  rw [Script.classDef, Script.classDef, h.name fun _ => rfl]
  rcases sc.name .missingClassName ts with e | ⟨n, r1⟩
  · rfl
  · dsimp only [readBelow, Prod.map, id]
    rw [h.baseTypes]
    rcases sc.baseTypes n r1 with e | ⟨bs, r2⟩
    · rfl
    · dsimp only [readBelow, Prod.map, id]
      rw [h.body fun _ => rfl]
      rcases sc.body (.missingClassBody n) r2 with e | ⟨close, rest⟩
      · rfl
      · exact congrArg Except.ok (h.parsed _ first close rest)

theorem Lowered.functionName (ts : List Token) :
    low.functionName (ts.map (Token.moved offset lines)) =
      readBelow lines (Prod.map id (List.map (Token.moved offset lines)))
        (sc.functionName ts) := by
  rw [Script.functionName, Script.functionName, h.name fun _ => rfl]
  rcases sc.name .missingFunctionName ts with e | ⟨n, _ | ⟨t, r⟩⟩
  · rfl
  · rfl
  · change (if t.kind = .colon then low.name .missingScopedName _ else .ok (n, _)) =
      readBelow lines _ (if t.kind = .colon then _ else _)
    split
    · exact h.name (fun _ => rfl) r
    · rfl

theorem Lowered.skipParameters (ts : List Token) :
    low.skipParameters (ts.map (Token.moved offset lines)) =
      readBelow lines (List.map (Token.moved offset lines)) (sc.skipParameters ts) := by
  cases ts with
  | nil => rfl
  | cons t r =>
    rw [List.map_cons, Script.skipParameters, Script.skipParameters, moved_kind, h.group]
    split
    · exact readBelow_map fun q => rfl
    · rfl

theorem Lowered.functionDef (first : Token) (ts : List Token) :
    low.functionDef (first.moved offset lines) (ts.map (Token.moved offset lines)) =
      readBelow lines (Parsed.moved offset lines) (sc.functionDef first ts) := by
  rw [Script.functionDef, Script.functionDef, h.functionName]
  rcases sc.functionName ts with e | ⟨n, r1⟩
  · rfl
  · dsimp only [readBelow, Prod.map, id]
    rw [h.skipParameters]
    rcases sc.skipParameters r1 with e | r2
    · rfl
    · dsimp only [readBelow]
      rw [h.body fun _ => rfl]
      rcases sc.body (.missingFunctionBody n) r2 with e | ⟨close, rest⟩
      · rfl
      · exact congrArg Except.ok (h.parsed _ first close rest)

/-! ### Assignments -/

theorem Lowered.expression (before : Option TokenKind) (ts : List Token) :
    low.expression before (ts.map (Token.moved offset lines)) =
      readBelow lines
        (Prod.map (List.map (Token.moved offset lines)) (List.map (Token.moved offset lines)))
        (sc.expression before ts) := by
  induction hlength : ts.length using Nat.strongRecOn generalizing before ts with
  | ind n ih =>
    cases ts with
    | nil =>
      rw [List.map_nil, Script.expression, Script.expression]
      rfl
    | cons t r =>
      rw [List.length_cons] at hlength
      rw [List.map_cons, expression_cons low, expression_cons sc, moved_kind]
      split
      · rfl
      · split
        · rw [h.group]
          apply readBelow_bind
          rintro ⟨close, rest⟩ hgroup
          have hrest := group_length hgroup
          dsimp only [Prod.map]
          rw [moved_kind, ih rest.length (by omega) _ rest rfl]
          exact readBelow_map fun q => rfl
        · have hkind : lastKind before (t.moved offset lines) = lastKind before t := rfl
          rw [hkind, ih r.length (by omega) _ r rfl]
          exact readBelow_map fun q => rfl

theorem Lowered.assignment (first target : Token) (attrs : List Text) (ts : List Token) :
    low.assignment (first.moved offset lines) (target.moved offset lines) attrs
      (ts.map (Token.moved offset lines)) =
        readBelow lines (Parsed.moved offset lines) (sc.assignment first target attrs ts) := by
  cases ts with
  | nil => exact congrArg Except.error (h.report rfl [])
  | cons e r =>
    rw [List.map_cons, Script.assignment, Script.assignment, moved_kind, skipBlank_moved,
      h.expression]
    split
    · rcases sc.expression none (skipBlank r) with err | ⟨es, rest⟩
      · rfl
      · have hfilter : (es.map (Token.moved offset lines)).filter isSignificant =
            (es.filter isSignificant).map (Token.moved offset lines) := List.filter_map
        dsimp only [readBelow, Prod.map]
        rw [hfilter]
        cases es.filter isSignificant with
        | nil => exact congrArg Except.error (h.report rfl rest)
        | cons start more =>
          rw [List.map_cons]
          dsimp only
          rw [getLast?_moved, h.slice, h.parsed]
          rfl
    · exact congrArg Except.error (h.reportToken rfl e)

/-! ### Statements -/

theorem Lowered.declaration (first : Token) (ts : List Token) :
    low.declaration (first.moved offset lines) (ts.map (Token.moved offset lines)) =
      readBelow lines (Parsed.moved offset lines) (sc.declaration first ts) := by
  rw [Script.declaration, Script.declaration, ← List.map_cons, h.attributes]
  rcases sc.attributes (first :: ts) with e | ⟨attrs, _ | ⟨t, r⟩⟩
  · rfl
  · exact congrArg Except.error (h.reportToken rfl first)
  · change (if t.kind = .enumWord then low.enumDef _ attrs (r.map _)
      else if t.kind = .classWord then low.classDef _ (r.map _)
      else if t.kind = .variable then low.assignment _ (t.moved offset lines) attrs (r.map _)
      else if t.kind = .functionWord && attrs.isEmpty then low.functionDef _ (r.map _)
      else .error (low.reportToken .unsupportedStatement _)) = readBelow lines _
        (if t.kind = .enumWord then _ else if t.kind = .classWord then _ else _)
    rw [h.enumDef, h.classDef, h.assignment, h.functionDef]
    split
    · rfl
    · split
      · rfl
      · split
        · rfl
        · split
          · rfl
          · exact congrArg Except.error (h.reportToken rfl first)

theorem Lowered.importName (first last : Token) (alone : Bool) :
    low.importName (first.moved offset lines) (last.moved offset lines) alone =
      sc.importName first last alone := by
  rw [Script.importName, Script.importName, h.slice]
  rfl

theorem Lowered.usingDirective (keyword : Token) (ts : List Token) :
    low.usingDirective (keyword.moved offset lines) (ts.map (Token.moved offset lines)) =
      readBelow lines (Parsed.moved offset lines) (sc.usingDirective keyword ts) := by
  cases ts with
  | nil => exact congrArg Except.error (h.report rfl [])
  | cons k r =>
    rw [List.map_cons, Script.usingDirective, Script.usingDirective, moved_kind]
    split
    · exact congrArg Except.error (h.reportToken rfl k)
    · have htake : (r.map (Token.moved offset lines)).takeWhile isNamePart =
          (r.takeWhile isNamePart).map (Token.moved offset lines) := List.takeWhile_map
      have hdrop : (r.map (Token.moved offset lines)).dropWhile isNamePart =
          (r.dropWhile isNamePart).map (Token.moved offset lines) := List.dropWhile_map
      rw [htake, hdrop]
      cases r.takeWhile isNamePart with
      | nil => exact congrArg Except.error (h.report rfl _)
      | cons start more =>
        rw [List.map_cons]
        dsimp only
        rw [getLast?_moved, List.isEmpty_map, h.importName, h.slice, h.filename]
        rfl

/-- Reports about the text in a requirement comment keep their line, all others are at the
    comment. -/
theorem Lowered.requirement (t : Token) :
    low.requirement (t.moved offset lines) =
      readBelow lines (Statement.below lines) (sc.requirement t) := by
  rw [Script.requirement, Script.requirement, h.filename, moved_text]
  cases hscan : scanFile sc.filename (t.text.drop requirementMarkLength) with
  | error r =>
    have hr : r.lowered lines = r := if_pos (scanFile_isLexical hscan)
    exact congrArg Except.error hr.symm
  | ok args =>
    dsimp only [bind, Except.bind]
    cases hoptions : requirementOptions {} args.tokens with
    | error p =>
      dsimp only [readBelow]
      rw [Report.lowered, requirementOptions_isLexical hoptions]
      rfl
    | ok req => rfl

theorem Lowered.statementsFrom (ts : List Token) :
    low.statementsFrom (ts.map (Token.moved offset lines)) =
      readBelow lines (List.map (Statement.below lines)) (sc.statementsFrom ts) := by
  induction hlength : ts.length using Nat.strongRecOn generalizing ts with
  | ind n ih =>
    cases ts with
    | nil =>
      rw [List.map_nil, Script.statementsFrom, Script.statementsFrom]
      rfl
    | cons t r =>
      rw [List.length_cons] at hlength
      have hseparator : Grammar.isSeparator (t.moved offset lines) = Grammar.isSeparator t := rfl
      rw [List.map_cons, statementsFrom_cons low, statementsFrom_cons sc, hseparator, moved_kind]
      split
      · exact ih r.length (by omega) r rfl
      · split
        · rw [h.requirement]
          apply readBelow_bind
          intro st hst
          rw [ih r.length (by omega) r rfl]
          exact readBelow_map fun sts => rfl
        · split
          · rw [h.usingDirective]
            apply readBelow_bind
            intro p hp
            have hshort := usingDirective_length hp
            rw [show (p.moved offset lines).rest = p.rest.map _ from rfl,
              ih p.rest.length (by omega) p.rest rfl]
            exact readBelow_map fun sts => rfl
          · rw [h.declaration]
            apply readBelow_bind
            intro p hp
            have hshort := declaration_length hp
            rw [show (p.moved offset lines).rest = p.rest.map _ from rfl,
              ih p.rest.length (by omega) p.rest rfl]
            exact readBelow_map fun sts => rfl

end

end ScriptModule.Script

namespace ScriptModule

open Script

/-! ### Classified sources -/

/-- The report about a source, for the source further down: a source that is not scanned
    has a report about its own characters. -/
def Report.furtherDown (source : Text) (lines : Nat) (r : Report) : Report :=
  match scan source with
  | .error _ => r.below lines
  | .ok _ => r.lowered lines

/-- What is read from a source, read further down. -/
def outcomeBelow (source : Text) (lines : Nat) :
    Except Report (List Statement) → Except Report (List Statement)
  | .ok sts => .ok (sts.map (Statement.below lines))
  | .error r => .error (r.furtherDown source lines)

theorem furtherDown_of_error {source : Text} {e : ScanError} (hscan : scan source = .error e)
    (lines : Nat) (r : Report) : r.furtherDown source lines = r.below lines := by
  rw [Report.furtherDown, hscan]

theorem furtherDown_of_ok {source : Text} {s : Scan} (hscan : scan source = .ok s)
    (lines : Nat) (r : Report) : r.furtherDown source lines = r.lowered lines := by
  rw [Report.furtherDown, hscan]

/-- One line end: the source is scanned behind it, and its tokens are read further down. -/
theorem classify_newline (filename : Option Text) (source : Text) :
    classify filename ('\n' :: source) = outcomeBelow source 1 (classify filename source) := by
  have hlow := scan_newline source
  cases hscan : scan source with
  | error e =>
    have hreport : ∀ name, (e.moved 1 1).report name = (e.report name).furtherDown source 1 :=
      fun name => (furtherDown_of_error hscan 1 (e.report name)).symm
    rw [hscan] at hlow
    unfold classify ofSource scanFile
    rw [hlow, hscan]
    exact congrArg Except.error (hreport _)
  | ok s =>
    rw [hscan] at hlow
    let low : Script :=
      ⟨filename, '\n' :: source, firstNewline :: (s.moved 1 1).tokens, (s.moved 1 1).stop⟩
    have hlowered : Lowered 1 1 ⟨filename, source, s.tokens, s.stop⟩ low :=
      ⟨rfl, ⟨['\n'], rfl, rfl⟩, rfl⟩
    have hseparator : Grammar.isSeparator firstNewline = true := rfl
    have hstatements := hlowered.statementsFrom s.tokens
    have hbelow : classify filename ('\n' :: source) = low.statementsFrom low.tokens :=
      classify_eq filename hlow
    rw [hbelow, statementsFrom_cons, if_pos hseparator, classify_eq filename hscan, statements]
    refine hstatements.trans ?_
    cases (Script.mk filename source s.tokens s.stop).statementsFrom s.tokens with
    | error r => exact congrArg Except.error (furtherDown_of_ok hscan 1 r).symm
    | ok sts => rfl

/-! ### Many line ends -/

theorem below_below (a b : Nat) (st : Statement) : (st.below a).below b = st.below (a + b) := by
  cases h : st.span with
  | none => simp [Statement.below, h]
  | some s => simp [Statement.below, Span.below, h, Int.add_assoc]

theorem report_below_below (a b : Nat) (r : Report) : (r.below a).below b = r.below (a + b) := by
  cases h : r.line with
  | none => simp [Report.below, h]
  | some l => simp [Report.below, h, Int.add_assoc]

theorem lowered_lowered (a b : Nat) (r : Report) :
    (r.lowered a).lowered b = r.lowered (a + b) := by
  by_cases hlexical : r.problem.isLexical = true
  · simp only [Report.lowered, if_pos hlexical]
  · have hbelow : ¬ (r.below a).problem.isLexical = true := hlexical
    simp only [Report.lowered, if_neg hlexical, if_neg hbelow, report_below_below]

theorem furtherDown_furtherDown (source : Text) (a b : Nat) (r : Report) :
    (r.furtherDown source a).furtherDown source b = r.furtherDown source (a + b) := by
  unfold Report.furtherDown
  cases scan source with
  | error e => exact report_below_below a b r
  | ok s => exact lowered_lowered a b r

theorem furtherDown_newlines (source : Text) (k lines : Nat) (r : Report) :
    r.furtherDown (List.replicate k '\n' ++ source) lines = r.furtherDown source lines := by
  induction k with
  | zero => rfl
  | succ k ih =>
    rw [← ih, List.replicate_succ, List.cons_append, Report.furtherDown, Report.furtherDown,
      scan_newline]
    cases scan (List.replicate k '\n' ++ source) <;> rfl

theorem furtherDown_zero (source : Text) (r : Report) : r.furtherDown source 0 = r := by
  have hbelow : r.below 0 = r := by simp [Report.below]
  unfold Report.furtherDown
  cases scan source with
  | error e => exact hbelow
  | ok s =>
    dsimp only
    rw [Report.lowered, hbelow, ite_self]

/-- Behind line ends a source has the same statements, further down.  A report about it has
    the same problem, column and text; its line is further down as well, unless the text in
    a requirement comment cannot be scanned. -/
theorem classify_newlines (filename : Option Text) (source : Text) (k : Nat) :
    classify filename (List.replicate k '\n' ++ source) =
      outcomeBelow source k (classify filename source) := by
  induction k with
  | zero =>
    cases hsource : classify filename source with
    | error r => exact hsource.trans (congrArg Except.error (furtherDown_zero source r).symm)
    | ok sts =>
      have hbelow : sts.map (Statement.below 0) = sts := by
        rw [funext below_zero, List.map_id']
      exact hsource.trans (congrArg Except.ok hbelow.symm)
  | succ k ih =>
    rw [List.replicate_succ, List.cons_append, classify_newline, ih]
    cases classify filename source with
    | error r =>
      refine congrArg Except.error ?_
      rw [furtherDown_newlines, furtherDown_furtherDown]
    | ok sts =>
      refine congrArg Except.ok ?_
      rw [List.map_map]
      exact congrArg (List.map · sts) (funext (below_below k 1))

/-- A string without an end in a requirement comment is reported on the first line of the
    comment, wherever the comment stands. -/
theorem not_classify_below :
    ¬ ∀ (filename : Option Text) (source : Text) (k : Nat) (r : Report),
      classify filename source = .error r →
        classify filename (List.replicate k '\n' ++ source) = .error (r.below k) := by
  intro hall
  have hrun : classify none "#Requires -Version '".toList =
      .error ⟨.unterminatedString, some unnamedSource, some 1, some 11, some ['\'']⟩ := by
    decide +kernel
  have hbelow := hall none _ 1 _ hrun
  have hsame : classify none "\n#Requires -Version '".toList =
      .error ⟨.unterminatedString, some unnamedSource, some 1, some 11, some ['\'']⟩ := by
    decide +kernel
  cases hsame.symm.trans hbelow

end ScriptModule
