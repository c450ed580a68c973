/-
  ScriptModule/Script/Requirement.lean
  ====================================
  **Requirement comments.**  The text behind the mark is scanned by itself; its
  tokens are options, each with values made of neighbouring tokens.  Mistakes are
  reported at the comment as a whole.
-/
import ScriptModule.Script.Basic

namespace ScriptModule.Script

/-! ### Values -/

def isBare (k : TokenKind) : Bool := k == .number || k == .word || k == .dot

/-- The texts of bare tokens without a gap between them, from an offset on. -/
def bareRun (offset : Nat) : List Token → Text × List Token
  | [] => ([], [])
  | t :: ts =>
    if isBare t.kind && t.start.offset == offset then
      (t.text ++ (bareRun t.stop.offset ts).1, (bareRun t.stop.offset ts).2)
    else ([], t :: ts)

/-- One value: the content of a string, or bare tokens without a gap. -/
def value? : List Token → Option (Text × List Token)
  | [] => none
  | t :: ts =>
    if t.kind == .string then some (t.value.getD [], ts)
    else if isBare t.kind then
      some (t.text ++ (bareRun t.stop.offset ts).1, (bareRun t.stop.offset ts).2)
    else none

theorem bareRun_length (offset : Nat) (ts : List Token) :
    (bareRun offset ts).2.length ≤ ts.length := by
  induction ts generalizing offset with
  | nil => simp [bareRun]
  | cons t ts ih =>
    unfold bareRun
    split
    · exact Nat.le_succ_of_le (ih _)
    · exact Nat.le_refl _

theorem value?_length {ts rest : List Token} {v : Text} (h : value? ts = some (v, rest)) :
    rest.length < ts.length := by
  cases ts with
  | nil => simp [value?] at h
  | cons t ts =>
    simp only [value?] at h
    split at h
    · cases h; exact Nat.lt_succ_self _
    · split at h
      · cases h; exact Nat.lt_succ_of_le (bareRun_length _ _)
      · simp at h

/-- Values with commas between them; none at all is no mistake here. -/
def values (ts : List Token) : List Text × List Token :=
  match _h : value? ts with
  | none => ([], ts)
  | some (v, []) => ([v], [])
  | some (v, c :: more) =>
    if c.kind = .comma then (v :: (values more).1, (values more).2)
    else ([v], c :: more)
termination_by ts.length
decreasing_by have := value?_length _h; simp only [List.length_cons] at this; omega

theorem values_length (ts : List Token) : (values ts).2.length ≤ ts.length := by
  induction n : ts.length using Nat.strongRecOn generalizing ts with
  | ind n ih =>
    unfold values
    split
    · simp [n]
    · simp
    · next v c more h =>
      have hl := value?_length h
      simp only [List.length_cons] at hl
      split
      · have := ih more.length (by omega) more rfl
        simp only; omega
      · simp only [List.length_cons]; omega

/-! ### Module tables -/

/-- The keys of a module specification. -/
inductive ModuleKey where
  | name
  | guid
  | minimum
  | maximum
  | exact_
deriving DecidableEq, Repr

def moduleKey? (word : Text) : Option ModuleKey :=
  let w := Text.fold word
  if w = "modulename".toList then some .name
  else if w = "guid".toList then some .guid
  else if w = "moduleversion".toList then some .minimum
  else if w = "maximumversion".toList then some .maximum
  else if w = "requiredversion".toList then some .exact_
  else none

/-- A specification with one entry more; the name is kept apart until it is known. -/
def addEntry (key : ModuleKey) (v : Text) (s : Option Text × ModuleSpec) :
    Option Text × ModuleSpec :=
  match key with
  | .name => (some v, s.2)
  | .guid => (s.1, { s.2 with guid := some v })
  | .minimum => (s.1, { s.2 with minVersion := some v })
  | .maximum => (s.1, { s.2 with maxVersion := some v })
  | .exact_ => (s.1, { s.2 with exactVersion := some v })

def moduleEntry (ts : List Token) : Except Problem ((ModuleKey × Text) × List Token) :=
  match value? ts with
  | none => .error (.unterminatedTable (found? ts))
  | some (word, rest) =>
    match moduleKey? word with
    | none => .error (.unknownModuleKey word)
    | some key =>
      match rest with
      | [] => .error (.missingModuleEquals word)
      | e :: more =>
        if e.kind = .equals then
          match value? more with
          | none => .error (.missingModuleValue word)
          | some (v, rest') => .ok ((key, v), rest')
        else .error (.missingModuleEquals word)

theorem moduleEntry_length {ts rest : List Token} {e : ModuleKey × Text}
    (h : moduleEntry ts = .ok (e, rest)) : rest.length < ts.length := by
  unfold moduleEntry at h
  split at h
  · simp at h
  · next word r hr =>
    have h1 := value?_length hr
    split at h
    · simp at h
    · split at h
      · simp at h
      · next e' more =>
        split at h
        · split at h
          · simp at h
          · next v r' hr' =>
            have h2 := value?_length hr'
            cases h
            simp only [List.length_cons] at h1; omega
        · simp at h

/-- Tokens between the entries of a module table. -/
def isEntryGap (t : Token) : Bool := t.kind == .semicolon || t.kind == .newline

def moduleTable (s : Option Text × ModuleSpec) (ts : List Token) :
    Except Problem (ModuleSpec × List Token) :=
  match _hd : ts.dropWhile isEntryGap with
  | [] => .error (.unterminatedTable none)
  | t :: rest =>
    if t.kind = .rightBrace then
      match s.1 with
      | some n => .ok ({ s.2 with name := n }, rest)
      | none => .error .missingModuleName
    else
      match _h : moduleEntry (t :: rest) with
      | .error e => .error e
      | .ok ((key, v), rest') => moduleTable (addEntry key v s) rest'
termination_by ts.length
decreasing_by
  have h1 := moduleEntry_length _h
  have h2 := (List.dropWhile_suffix (l := ts) isEntryGap).length_le
  rw [_hd] at h2; omega

theorem moduleTable_length {s : Option Text × ModuleSpec} {ts rest : List Token} {m : ModuleSpec}
    (h : moduleTable s ts = .ok (m, rest)) : rest.length < ts.length := by
  induction n : ts.length using Nat.strongRecOn generalizing s ts with
  | ind n ih =>
    unfold moduleTable at h
    have h2 := (List.dropWhile_suffix (l := ts) isEntryGap).length_le
    split at h
    · simp at h
    · next t r hd =>
      rw [hd] at h2
      simp only [List.length_cons] at h2
      split at h
      · split at h
        · cases h; omega
        · simp at h
      · split at h
        · simp at h
        · next key v r' he =>
          have h1 := moduleEntry_length he
          simp only [List.length_cons] at h1
          have := ih r'.length (by omega) h rfl
          omega

def moduleSpec (ts : List Token) : Except Problem (ModuleSpec × List Token) :=
  match ts with
  | t :: rest =>
    if t.kind = .atBrace then moduleTable (none, ⟨[], none, none, none, none⟩) rest
    else
      match value? ts with
      | some (n, rest') => .ok ({ name := n }, rest')
      | none => .error (.missingModule (some t.text))
  | [] => .error (.missingModule none)

theorem moduleSpec_length {ts rest : List Token} {m : ModuleSpec}
    (h : moduleSpec ts = .ok (m, rest)) : rest.length < ts.length := by
  unfold moduleSpec at h
  split at h
  · split at h
    · exact Nat.lt_succ_of_lt (moduleTable_length h)
    · split at h
      · next hv => cases h; exact value?_length hv
      · simp at h
  · simp at h

/-- Modules with commas between them; at least one. -/
def moduleSpecs (ts : List Token) : Except Problem (List ModuleSpec × List Token) :=
  match _h : moduleSpec ts with
  | .error e => .error e
  | .ok (m, []) => .ok ([m], [])
  | .ok (m, c :: more) =>
    if c.kind = .comma then
      match moduleSpecs more with
      | .error e => .error e
      | .ok (ms, rest) => .ok (m :: ms, rest)
    else .ok ([m], c :: more)
termination_by ts.length
decreasing_by have := moduleSpec_length _h; simp only [List.length_cons] at this; omega

theorem moduleSpecs_length {ts rest : List Token} {ms : List ModuleSpec}
    (h : moduleSpecs ts = .ok (ms, rest)) : rest.length < ts.length := by
  induction n : ts.length using Nat.strongRecOn generalizing ts ms with
  | ind n ih =>
    unfold moduleSpecs at h
    split at h
    · simp at h
    · next m hm => cases h; have := moduleSpec_length hm; omega
    · next m c more hm =>
      have h1 := moduleSpec_length hm
      simp only [List.length_cons] at h1
      split at h
      · split at h
        · simp at h
        · next ms' r' hs =>
          cases h
          have := ih more.length (by omega) hs rfl
          omega
      · cases h; simp only [List.length_cons]; omega

/-! ### Options -/

/-- One option with its values, added to what is required so far. -/
def requirementOption (req : Requires) (option : Token) (ts : List Token) :
    Except Problem (Requires × List Token) :=
  let word := Text.fold (option.text.drop 1)
  if word = "version".toList then
    match value? ts with
    | some (c :: v, rest) => .ok ({ req with version := some (c :: v) }, rest)
    | _ => .error .missingVersion
  else if word = "psedition".toList || word = "pseditions".toList then
    match values ts with
    | ([], _) => .error .missingEdition
    | (vs, rest) => .ok ({ req with editions := req.editions ++ vs }, rest)
  else if word = "modules".toList then
    match moduleSpecs ts with
    | .error e => .error e
    | .ok (ms, rest) => .ok ({ req with modules := req.modules ++ ms }, rest)
  else if word = "assembly".toList then
    let (vs, rest) := values ts
    .ok ({ req with assemblies := req.assemblies ++ vs }, rest)
  else if word = "runasadministrator".toList then .ok ({ req with runAsAdmin := true }, ts)
  else .error (.unsupportedParameter option.text)

theorem requirementOption_length {req req' : Requires} {option : Token} {ts rest : List Token}
    (h : requirementOption req option ts = .ok (req', rest)) : rest.length ≤ ts.length := by
  unfold requirementOption at h
  simp only at h
  split at h
  · split at h
    · next hv => cases h; exact Nat.le_of_lt (value?_length hv)
    · simp at h
  · split at h
    · have hl := values_length ts
      split at h
      · simp at h
      · next hv => cases h; rw [hv] at hl; exact hl
    · split at h
      · split at h
        · simp at h
        · next hm => cases h; exact Nat.le_of_lt (moduleSpecs_length hm)
      · split at h
        · cases h; exact values_length ts
        · split at h
          · cases h; exact Nat.le_refl _
          · simp at h

def requirementOptions (req : Requires) (ts : List Token) : Except Problem Requires :=
  match ts with
  | [] => .ok req
  | t :: more =>
    if t.kind = .parameter then
      match _h : requirementOption req t more with
      | .error e => .error e
      | .ok (req', rest) => requirementOptions req' rest
    else .error (.unexpectedArgument (some t.text))
termination_by ts.length
decreasing_by have := requirementOption_length _h; simp only [List.length_cons]; omega

/-! ### Comments -/

/-- The length of the mark that starts a requirement comment. -/
def requirementMarkLength : Nat := 9

def requirement (sc : Script) (t : Token) : Except Report Statement := do
  let args ← scanFile sc.filename (t.text.drop requirementMarkLength)
  match requirementOptions {} args.tokens with
  | .error p => .error {
      problem := p
      filename := sc.filename
      line := some t.start.line
      column := some t.start.column
      text := some t.text }
  | .ok req => .ok {
      content := .requirement req
      filename := sc.filename
      span := some ⟨t.start.line, t.start.column, t.start.line, t.start.column + t.text.length⟩
      text := t.text }

end ScriptModule.Script
