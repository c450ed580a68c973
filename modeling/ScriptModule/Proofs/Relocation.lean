/-
  ScriptModule/Proofs/Relocation.lean
  ===================================
  **Scripts inside longer scripts.**  When the source of a script stands inside a longer
  one, with more tokens behind it that start with a line end, its statements are read from
  the moved tokens as well; only places change.
-/
import ScriptModule.Proofs.Recast

namespace ScriptModule

/-! ### Moved tokens -/

def Position.moved (offset lines : Nat) (p : Position) : Position :=
  ⟨p.offset + offset, p.line + lines, p.column⟩

def Token.moved (offset lines : Nat) (t : Token) : Token where
  kind := t.kind
  text := t.text
  start := t.start.moved offset lines
  stop := t.stop.moved offset lines
  value := t.value

def Span.below (lines : Nat) (s : Span) : Span :=
  ⟨s.startLine + lines, s.startColumn, s.endLine + lines, s.endColumn⟩

/-- The same statement, so many lines further down. -/
def Statement.below (lines : Nat) (st : Statement) : Statement :=
  { st with span := st.span.map (Span.below lines) }

/-- How far the tokens of a script move, and the tokens that stand behind them. -/
structure Placement where
  offset : Nat
  lines : Nat
  behind : List Token

namespace Placement

variable {p : Placement} {t u : Token} {ts rest : List Token}

def token (p : Placement) (t : Token) : Token := t.moved p.offset p.lines

def tokens (p : Placement) (ts : List Token) : List Token := ts.map p.token ++ p.behind

/-- A placement as a change of places. -/
def recast (p : Placement) : Recast := ⟨Position.moved p.offset p.lines, p.behind⟩

@[simp] theorem token_text : (p.token t).text = t.text := rfl

theorem span_token : Script.span (p.token t) (p.token u) = (Script.span t u).below p.lines := rfl

/-- A placement of one script in another: its source stands there, and a line end or
    nothing follows. -/
structure Of (p : Placement) (sc whole : Script) : Prop where
  filename : whole.filename = sc.filename
  source : ∃ front back, whole.source = front ++ sc.source ++ back ∧ front.length = p.offset
  newline : ∀ t ∈ p.behind.head?, t.kind = .newline

end Placement

/-- Whether tokens end inside the source of a script. -/
def Inside (sc : Script) (ts : List Token) : Prop := ∀ t ∈ ts, t.stop.offset ≤ sc.source.length

theorem Inside.of_suffix {sc : Script} {us ts : List Token} (h : Inside sc ts)
    (hsuffix : us <:+ ts) : Inside sc us := by
  intro t ht
  exact h t (hsuffix.subset ht)

namespace Placement

open Script Grammar

section

variable {p : Placement} {sc whole : Script} {t u : Token} {ts rest : List Token}

theorem Of.slice (h : p.Of sc whole) (hstop : u.stop.offset ≤ sc.source.length) :
    whole.slice (p.token t) (p.token u) = sc.slice t u := by
  obtain ⟨front, back, hsource, hfront⟩ := h.source
  have hstart : (p.token t).start.offset = front.length + t.start.offset := by
    rw [hfront, Nat.add_comm]
    rfl
  have hlength : (p.token u).stop.offset - (p.token t).start.offset =
      u.stop.offset - t.start.offset := by
    change u.stop.offset + p.offset - (t.start.offset + p.offset) = _
    omega
  rw [Script.slice, Script.slice, hlength, hstart, hsource, List.append_assoc, ← List.drop_drop,
    List.drop_left]
  by_cases hin : t.start.offset ≤ sc.source.length
  · rw [List.drop_append_of_le_length hin, List.take_append_of_le_length]
    rw [List.length_drop]
    omega
  · have hnone : u.stop.offset - t.start.offset = 0 := by omega
    rw [hnone, List.take_zero, List.take_zero]

theorem Of.recast (h : p.Of sc whole) :
    p.recast.Of sc whole fun t => t.stop.offset ≤ sc.source.length :=
  ⟨fun _ hstop => h.slice hstop, h.newline⟩

/-! ### Statements -/

theorem Of.requirement_token (h : p.Of sc whole) {st : Statement}
    (hparse : sc.requirement t = .ok st) :
    whole.requirement (p.token t) = .ok (st.below p.lines) := by
  unfold requirement at hparse ⊢
  rw [h.filename, token_text]
  rcases hscan : scanFile sc.filename (t.text.drop requirementMarkLength) with r | args
  · rw [hscan] at hparse
    cases hparse
  · rw [hscan] at hparse
    rcases hoptions : requirementOptions {} args.tokens with problem | req
    · simp only [hoptions, bind, Except.bind] at hparse
      cases hparse
    · simp only [hoptions, bind, Except.bind] at hparse ⊢
      cases hparse
      rfl

theorem Of.stated_token (h : p.Of sc whole) {last : Token} (content : Content)
    (hlast : last.stop.offset ≤ sc.source.length) :
    stated whole content (p.token t) (p.token last) =
      (stated sc content t last).below p.lines := by
  rw [stated, stated, h.filename, h.slice hlast, span_token]
  rfl

end

end Placement

/-- Whether a statement ends where a token does. -/
def Statement.EndsWith (st : Statement) (t : Token) : Prop :=
  st.span.map (fun s => (s.endLine, s.endColumn)) = some (↑t.stop.line, ↑t.stop.column)

instance (st : Statement) (t : Token) : Decidable (st.EndsWith t) :=
  inferInstanceAs (Decidable (_ = _))

def Content.isAssignment : Content → Bool
  | .assignment _ => true
  | _ => false

/-- Whether a last assignment ends with a token that does not continue its line. -/
def LastComplete (ts : List Token) (sts : List Statement) : Prop :=
  ∀ st ∈ sts.getLast?, st.content.isAssignment = true →
    ∀ t ∈ ts, st.EndsWith t → Script.continuesLine (some t.kind) = false

instance (ts : List Token) (sts : List Statement) : Decidable (LastComplete ts sts) :=
  inferInstanceAs (Decidable (∀ st ∈ sts.getLast?, st.content.isAssignment = true →
    ∀ t ∈ ts, st.EndsWith t → Script.continuesLine (some t.kind) = false))

theorem LastComplete.of_suffix {us ts : List Token} {sts : List Statement}
    (h : LastComplete ts sts) (hsuffix : us <:+ ts) : LastComplete us sts := by
  intro st hlast hassignment t ht
  exact h st hlast hassignment t (hsuffix.subset ht)

theorem LastComplete.tail {ts : List Token} {st : Statement} {sts : List Statement}
    (h : LastComplete ts (st :: sts)) : LastComplete ts sts := by
  intro last hlast
  apply h last
  rw [List.getLast?_cons, hlast]
  rfl

/-- The statements of a script are read from its moved tokens as well, in front of those of
    the tokens behind. -/
theorem Placement.Of.statements_tokens {p : Placement} {sc whole : Script} (h : p.Of sc whole)
    {ts : List Token} {sts bs : List Statement} (hstatements : Grammar.Statements sc ts sts)
    (hin : Inside sc ts) (hcomplete : p.behind ≠ [] → LastComplete ts sts)
    (hbehind : Grammar.Statements whole p.behind bs) :
    Grammar.Statements whole (p.tokens ts) (sts.map (Statement.below p.lines) ++ bs) := by
  induction hstatements with
  | nil => exact hbehind
  | @separator t ts sts hseparator _ ih =>
    have hsuffix := List.suffix_cons t ts
    have hrest := ih (hin.of_suffix hsuffix) fun hb => (hcomplete hb).of_suffix hsuffix
    exact .separator hseparator hrest
  | @requirement t ts st sts hrequirement hparse _ ih =>
    have hsuffix := List.suffix_cons t ts
    have hrest := ih (hin.of_suffix hsuffix) fun hb => (hcomplete hb).tail.of_suffix hsuffix
    exact .requirement hrequirement (h.requirement_token hparse) hrest
  | @importing t last ts rest i sts husing himport _ ih =>
    have hts := hin.of_suffix (List.suffix_cons t ts)
    have hextent := himport.extent.trans (List.suffix_cons t ts)
    have hsuffix := (List.suffix_cons last rest).trans hextent
    have hrest := ih (hin.of_suffix hsuffix) fun hb => (hcomplete hb).tail.of_suffix hsuffix
    rw [List.map_cons, ← h.stated_token _ (hin last (hextent.subset List.mem_cons_self))]
    exact .importing husing (h.recast.importing_tokens himport hts) hrest
  | @declaration t last ts rest content sts hdeclaration hmore ih =>
    obtain ⟨tail, hextent, -⟩ := hdeclaration.extent
    have hlast := hextent.subset List.mem_cons_self
    have hsuffix := ((List.suffix_append tail rest).trans (List.suffix_cons last _)).trans hextent
    have hrest := ih (hin.of_suffix hsuffix) fun hb => (hcomplete hb).tail.of_suffix hsuffix
    have hdeclaration' := h.recast.declaration_tokens hdeclaration hin fun v hcontent hnil hb => by
      rw [hnil] at hmore
      cases hmore
      exact hcomplete hb _ rfl (congrArg Content.isAssignment hcontent) last hlast rfl
    rw [List.map_cons, ← h.stated_token _ (hin last hlast)]
    exact .declaration hdeclaration' hrest

end ScriptModule
