/-
  ScriptModule/Proofs/OptionPieces.lean
  =====================================
  **Options of requirement comments, piece by piece.**  A value in front of a comma, a blank
  or the end is one row of bare pieces, a list is such rows with commas between them, and a
  module table is a row of keys with quoted texts.  The parsers read off each of them what
  it was made from.
-/
import ScriptModule.Proofs.BareValue
import ScriptModule.Proofs.Lines
import ScriptModule.Proofs.Literals
import ScriptModule.Proofs.RequirementText

namespace ScriptModule

open Lexeme Script Grammar

/-! ### Comments -/

/-- Whether a comment that ends with this text keeps all of it: no line end and no null
    character in it, and no carriage return at its end. -/
structure EndsComment (t : Text) : Prop where
  line : t.all inLine = true
  last : ∀ c ∈ t.getLast?, c ≠ '\r'

theorem EndsComment.append {a b : Text} (ha : a.all inLine = true) (hb : EndsComment b)
    (hne : b ≠ []) : EndsComment (a ++ b) where
  line := by
    rw [List.all_append, ha, hb.line]
    rfl
  last := by
    rw [List.getLast?_append_of_ne_nil a hne]
    exact hb.last

theorem endsComment_of_wordChars {t : Text} (h : ∀ c ∈ t, isWordChar c = true) :
    EndsComment t := by
  have hne : ∀ {c d : Char}, isWordChar c = true → isWordChar d = false → c ≠ d := by
    rintro c d hc hd rfl
    rw [hc] at hd
    cases hd
  constructor
  · rw [List.all_eq_true]
    intro c hc
    have hnewline : c ≠ '\n' := hne (h c hc) (by decide)
    have hnull : c ≠ '\x00' := hne (h c hc) (by decide)
    simp [inLine, hnewline, hnull]
  · intro c hc
    exact hne (h c (List.mem_of_getLast? hc)) (by decide)

/-- Pieces of the text behind the mark of a requirement comment. -/
structure IsOptions (ps : List Piece) (req : Requires) : Prop where
  spells : Spells none [] ps
  reads : requirementOptions {} (tokensOf .start ps) = .ok req
  first : ∃ t, textOf ps = ' ' :: t
  ends : EndsComment (textOf ps)

/-- The comment piece of some options. -/
def requirementPiece (ps : List Piece) : Piece :=
  Piece.whole .comment ("#Requires".toList ++ textOf ps)

/-- A comment with options is a line of its own. -/
theorem isLine_requirement {ps : List Piece} {req : Requires} (h : IsOptions ps req) :
    IsLine [requirementPiece ps] (.requirement req) := by
  obtain ⟨t, ht⟩ := h.first
  have hends : EndsComment ("#Requires".toList ++ textOf ps) := by
    refine h.ends.append (by decide) ?_
    rw [ht]
    exact List.cons_ne_nil _ _
  constructor
  · intro before rest hrest
    refine ⟨⟨rfl, ?_, rfl⟩, trivial⟩
    have hlength : lineCommentLength (("Requires".toList ++ textOf ps) ++ rest) =
        ("Requires".toList ++ textOf ps).length := by
      apply runLength_append_eq.mpr
      constructor
      · intro c hc
        exact List.all_eq_true.mp hends.line c (List.mem_cons_of_mem '#' hc)
      · rcases hrest with rfl | ⟨r, rfl⟩ <;> rfl
    change Except.ok (Lexeme.mk .comment (lineCommentLength
      (("Requires".toList ++ textOf ps) ++ rest)) none) = _
    rw [hlength]
    rfl
  · intro sc front back ts sts hsource hts hmore
    let lexeme : Lexeme := ⟨.comment, ("Requires".toList ++ textOf ps).length, none⟩
    let comment := lexeme.token (Position.start.advance front) '#' ("Requires".toList ++ textOf ps)
    have htext : comment.text = "#Requires".toList ++ textOf ps := by
      change Lexeme.text ⟨.comment, _, none⟩ '#' ("Requires".toList ++ textOf ps) = _
      rw [text_eq_shown rfl, shown, if_pos ⟨rfl, rfl⟩]
      apply Text.dropEndWhile_of_getLast?
      intro c hc
      exact decide_eq_false (hends.last c hc)
    have hmark : comment.isRequirement = true := by
      have hfold : Text.fold (("#Requires".toList ++ textOf ps).take 9) = "#requires".toList := by
        change Text.fold "#Requires".toList = _
        decide
      have hdrop : ("#Requires".toList ++ textOf ps).drop 9 = ' ' :: t := ht
      rw [Token.isRequirement, htext, hfold, hdrop]
      rfl
    have hargs : scan (comment.text.drop requirementMarkLength) =
        .ok ⟨tokensOf .start ps, Position.start.advance (textOf ps)⟩ := by
      rw [htext]
      exact scanFrom_textOf h.spells .start
    exact ⟨_, rfl, .requirement (t := comment) hmark
      (requirement_iff.mpr ⟨_, req, hargs, h.reads, rfl⟩) hmore⟩

/-! ### Options -/

/-- The options that are printed. -/
def optionWords : List Text := ["-Version", "-PSEdition", "-Modules", "-RunAsAdministrator"]

theorem fits_optionWord {word : Text} (h : word ∈ optionWords) {rest : Text}
    (hrest : Stops isParameterChar rest) (sign : Bool) :
    (Piece.whole .parameter word).Fits sign rest := by
  have hname : ∀ {c : Char} {w : Text}, Unicode.isDigit c = false → startsWord c = true →
      (c :: w).all isParameterChar = true →
        (Piece.whole .parameter ('-' :: c :: w)).Fits sign rest := by
    intro c w hdigit hword hchars
    have hlength : runLength isParameterChar ((c :: w) ++ rest) = (c :: w).length :=
      runLength_append_eq.mpr ⟨List.all_eq_true.mp hchars, hrest⟩
    refine ⟨rfl, ?_, rfl⟩
    change Except.ok (dash sign ((c :: w) ++ rest)) = _
    rw [List.cons_append] at hlength ⊢
    simp only [dash, hdigit, hword, Bool.false_and, Bool.false_eq_true, if_false, if_true, hlength]
    rfl
  simp only [optionWords, List.mem_cons, List.not_mem_nil, or_false] at h
  rcases h with rfl | rfl | rfl | rfl
  · exact hname (by decide) (by decide) (by decide)
  · exact hname (by decide) (by decide) (by decide)
  · exact hname (by decide) (by decide) (by decide)
  · exact hname (by decide) (by decide) (by decide)

theorem requirementOptions_one {req req' : Requires} {t : Token} {ts : List Token}
    (ht : t.kind = .parameter) (h : requirementOption req t ts = .ok (req', [])) :
    requirementOptions req (t :: ts) = .ok req' := by
  rw [requirementOptions, if_pos ht]
  split
  · next he =>
    rw [h] at he
    cases he
  · next ho =>
    rw [h] at ho
    cases ho
    exact requirementOptions.eq_1 _

/-- The pieces of one option. -/
def optionPieces (word : Text) (value : List Piece) : List Piece :=
  .gap ' ' [] :: Piece.whole .parameter word :: value

theorem textOf_optionPieces {word : Text} (h : word ∈ optionWords) (value : List Piece) :
    textOf (optionPieces word value) = ' ' :: (word ++ textOf value) := by
  have hne : word ≠ [] := by
    rintro rfl
    exact absurd h (by decide)
  rw [optionPieces, textOf_cons, textOf_cons, Piece.text_whole hne]
  rfl

theorem isOptions_option {word : Text} (hword : word ∈ optionWords) {value : List Piece}
    {req : Requires} (hspells : Spells (some .parameter) [] value)
    (hstops : Stops isParameterChar (textOf value)) (hends : EndsComment (word ++ textOf value))
    (hreads : ∀ a b, requirementOption {} (Token.whole .parameter word a) (tokensOf b value) =
      .ok (req, [])) : IsOptions (optionPieces word value) req := by
  have hne : word ≠ [] := by
    rintro rfl
    exact absurd hword (by decide)
  constructor
  · refine ⟨rfl, fits_optionWord hword ?_ _, ?_⟩
    · rw [List.append_nil]
      exact hstops
    · obtain ⟨c, w, rfl⟩ := List.exists_cons_of_ne_nil hne
      exact hspells
  · rw [optionPieces, tokensOf, tokensOf_whole hne (by decide)]
    exact requirementOptions_one rfl (hreads _ _)
  · exact ⟨_, textOf_optionPieces hword value⟩
  · rw [textOf_optionPieces hword]
    exact hends.append (a := [' ']) (by decide) (List.append_ne_nil_of_left_ne_nil hne _)

/-! ### Values and lists of values -/

theorem isOptions_elevation :
    IsOptions (optionPieces "-RunAsAdministrator" []) { runAsAdmin := true } := by
  refine isOptions_option (by decide) trivial rfl ⟨by decide, ?_⟩ ?_
  · rintro c ⟨⟩
    decide
  · intro a b
    rfl

theorem IsBareRow.text_ne_nil {qs : List Piece} (h : IsBareRow qs) : textOf qs ≠ [] := by
  obtain ⟨q, qs, rfl⟩ := List.exists_cons_of_ne_nil h.ne_nil
  exact List.append_ne_nil_of_left_ne_nil q.text_ne_nil _

theorem IsBareRow.endsComment {qs : List Piece} (h : IsBareRow qs) (front : Text)
    (hfront : front.all inLine = true) : EndsComment (front ++ textOf qs) :=
  (endsComment_of_wordChars h.wordChars).append hfront h.text_ne_nil

theorem isOptions_version {qs : List Piece} (h : IsBareRow qs) :
    IsOptions (optionPieces "-Version" (.gap ' ' [] :: qs)) { version := some (textOf qs) } := by
  refine isOptions_option (by decide) ⟨rfl, h.spells _ rfl⟩ rfl ?_ ?_
  · exact h.endsComment "-Version ".toList (by decide)
  · intro a b
    have hvalue := h.value? (b.advance [' ']) [] nofun
    rw [List.append_nil] at hvalue
    obtain ⟨c, t, ht⟩ := List.exists_cons_of_ne_nil h.text_ne_nil
    rw [ht] at hvalue ⊢
    rw [requirementOption, tokensOf, hvalue]
    rfl

/-- The pieces of further values, each behind a comma. -/
def valuesBehind (rows : List (List Piece)) : List Piece :=
  rows.flatMap fun qs => Piece.whole .comma [','] :: .gap ' ' [] :: qs

theorem textOf_valuesBehind (rows : List (List Piece)) :
    textOf (valuesBehind rows) = (rows.map textOf).flatMap (", ".toList ++ ·) := by
  induction rows with
  | nil => rfl
  | cons qs rows ih =>
    have hcons : valuesBehind (qs :: rows) =
        (Piece.whole .comma [','] :: .gap ' ' [] :: qs) ++ valuesBehind rows := rfl
    rw [hcons, textOf_append, ih]
    rfl

theorem spells_values {qs : List Piece} {rows : List (List Piece)} (hqs : IsBareRow qs)
    (hrows : ∀ row ∈ rows, IsBareRow row) (before : Option TokenKind) :
    Spells before [] (qs ++ valuesBehind rows) := by
  induction rows generalizing qs before with
  | nil =>
    rw [valuesBehind, List.flatMap_nil, List.append_nil]
    exact hqs.spells before rfl
  | cons row rows ih =>
    rw [List.forall_mem_cons] at hrows
    refine spells_append.mpr ⟨hqs.spells before rfl, ⟨rfl, rfl, rfl⟩, rfl, ?_⟩
    exact ih hrows.1 hrows.2 _

theorem values_last {ts : List Token} {v : Text} (h : value? ts = some (v, [])) :
    values ts = ([v], []) := by
  rw [values]
  split
  · next hnone =>
    rw [h] at hnone
    cases hnone
  · next hv =>
    rw [h] at hv
    cases hv
    rfl
  · next hv =>
    rw [h] at hv
    cases hv

theorem values_comma {ts more : List Token} {v : Text} {c : Token}
    (h : value? ts = some (v, c :: more)) (hcomma : c.kind = .comma) :
    values ts = (v :: (values more).1, (values more).2) := by
  rw [values]
  split
  · next hnone =>
    rw [h] at hnone
    cases hnone
  · next hv =>
    rw [h] at hv
    cases hv
  · next hv =>
    rw [h] at hv
    cases hv
    rw [if_pos hcomma]

/-- A list of values is read as the texts it was made from. -/
theorem values_tokensOf {qs : List Piece} {rows : List (List Piece)} (hqs : IsBareRow qs)
    (hrows : ∀ row ∈ rows, IsBareRow row) (place : Position) :
    values (tokensOf place (qs ++ valuesBehind rows)) = (textOf qs :: rows.map textOf, []) := by
  induction rows generalizing qs place with
  | nil =>
    have hvalue := hqs.value? place [] nofun
    rw [List.append_nil] at hvalue
    rw [valuesBehind, List.flatMap_nil, List.append_nil]
    exact values_last hvalue
  | cons row rows ih =>
    rw [List.forall_mem_cons] at hrows
    let behind := place.advance (textOf qs)
    let more := tokensOf ((behind.advance [',']).advance [' ']) (row ++ valuesBehind rows)
    have htokens : tokensOf place (qs ++ valuesBehind (row :: rows)) =
        tokensOf place qs ++ Token.whole .comma [','] behind :: more := by
      rw [tokensOf_append]
      rfl
    have hvalue := hqs.value? place (Token.whole .comma [','] behind :: more) (by rintro t ⟨⟩; rfl)
    rw [← htokens] at hvalue
    rw [values_comma hvalue rfl, ih hrows.1 hrows.2]
    rfl

theorem endsComment_values {qs : List Piece} {rows : List (List Piece)} (hqs : IsBareRow qs)
    (hrows : ∀ row ∈ rows, IsBareRow row) {front : Text} (hfront : front.all inLine = true) :
    EndsComment (front ++ textOf (qs ++ valuesBehind rows)) := by
  induction rows generalizing qs front with
  | nil =>
    rw [valuesBehind, List.flatMap_nil, List.append_nil]
    exact hqs.endsComment front hfront
  | cons row rows ih =>
    rw [List.forall_mem_cons] at hrows
    have hline : (front ++ (textOf qs ++ ", ".toList)).all inLine = true := by
      rw [List.all_append, List.all_append, hfront,
        (endsComment_of_wordChars hqs.wordChars).line]
      rfl
    have hmore := ih hrows.1 hrows.2 hline
    rw [List.append_assoc, List.append_assoc] at hmore
    rw [textOf_append]
    exact hmore

theorem isOptions_editions {qs : List Piece} {rows : List (List Piece)} (hqs : IsBareRow qs)
    (hrows : ∀ row ∈ rows, IsBareRow row) :
    IsOptions (optionPieces "-PSEdition" (.gap ' ' [] :: (qs ++ valuesBehind rows)))
      { editions := textOf qs :: rows.map textOf } := by
  refine isOptions_option (by decide) ⟨rfl, spells_values hqs hrows _⟩ rfl ?_ ?_
  · have hname : "-PSEdition ".toList.all inLine = true := by decide
    exact endsComment_values hqs hrows hname
  · intro a b
    rw [requirementOption, tokensOf, values_tokensOf hqs hrows]
    rfl

/-! ### Modules -/

theorem moduleSpecs_one {ts : List Token} {m : ModuleSpec} (h : moduleSpec ts = .ok (m, [])) :
    moduleSpecs ts = .ok ([m], []) := by
  rw [moduleSpecs]
  split
  · next he =>
    rw [h] at he
    cases he
  · next hm =>
    rw [h] at hm
    cases hm
    rfl
  · next hm =>
    rw [h] at hm
    cases hm

theorem isOptions_module {value : List Piece} {m : ModuleSpec}
    (hspells : ∀ before, Spells before [] value)
    (hends : EndsComment ("-Modules ".toList ++ textOf value))
    (hreads : ∀ place, moduleSpec (tokensOf place value) = .ok (m, [])) :
    IsOptions (optionPieces "-Modules" (.gap ' ' [] :: value)) { modules := [m] } := by
  refine isOptions_option (by decide) ⟨rfl, hspells _⟩ rfl hends ?_
  intro a b
  rw [requirementOption, tokensOf, moduleSpecs_one (hreads _)]
  rfl

/-- A module that is named without a table. -/
theorem isOptions_plainModule {qs : List Piece} (h : IsBareRow qs) :
    IsOptions (optionPieces "-Modules" (.gap ' ' [] :: qs))
      { modules := [{ name := textOf qs }] } := by
  refine isOptions_module (fun before => h.spells before rfl) (h.endsComment _ (by decide)) ?_
  intro place
  have hvalue := h.value? place [] nofun
  rw [List.append_nil] at hvalue
  obtain ⟨q, qs, rfl⟩ := List.exists_cons_of_ne_nil h.ne_nil
  obtain @⟨c, w, l, hkind⟩ := h.bare q List.mem_cons_self
  have hopen : ¬ (l.token place c w).kind = .atBrace := by
    rw [token_kind]
    intro hbrace
    rw [hbrace] at hkind
    cases hkind
  rw [tokensOf] at hvalue ⊢
  rw [moduleSpec, if_neg hopen, hvalue]

/-! ### Quoted texts -/

/-- A text in single quotes. -/
def quotedPiece (v : Text) : Piece := .lexeme '\'' (v ++ ['\'']) ⟨.string, v.length + 1, some v⟩

theorem fits_quotedPiece {v rest : Text} (hv : '\'' ∉ v) (hrest : Stops (· = '\'') rest)
    (sign : Bool) : (quotedPiece v).Fits sign rest := by
  have hfits := fits_literalPiece v hrest sign
  rwa [literalPiece, Literal.doubled_of_not_mem hv] at hfits

/-! ### Module tables -/

/-- The key as it is printed. -/
def ModuleKey.word : ModuleKey → Text
  | .name => "ModuleName"
  | .guid => "GUID"
  | .minimum => "ModuleVersion"
  | .maximum => "MaximumVersion"
  | .exact_ => "RequiredVersion"

theorem ModuleKey.word_ne_nil (key : ModuleKey) : ModuleKey.word key ≠ [] := by
  cases key <;> exact List.cons_ne_nil _ _

theorem moduleKey?_word (key : ModuleKey) : moduleKey? (ModuleKey.word key) = some key := by
  cases key <;> decide

/-- An entry as it is printed. -/
def entryText (e : ModuleKey × Text) : Text :=
  ModuleKey.word e.1 ++ " = '".toList ++ e.2 ++ "'".toList

theorem entryText_line {e : ModuleKey × Text} (h : e.2.all inLine = true) :
    (entryText e).all inLine = true := by
  have hword : (ModuleKey.word e.1).all inLine = true := by
    cases e.1 <;> decide
  rw [entryText, List.all_append, List.all_append, List.all_append, hword, h]
  rfl

/-- The pieces of one entry. -/
def entryPieces (e : ModuleKey × Text) : List Piece :=
  [Piece.whole .word (ModuleKey.word e.1), .gap ' ' [], Piece.whole .equals ['='], .gap ' ' [],
    quotedPiece e.2]

theorem textOf_entryPieces (e : ModuleKey × Text) : textOf (entryPieces e) = entryText e := by
  have hvalue : textOf [.gap ' ' [], Piece.whole .equals ['='], .gap ' ' [], quotedPiece e.2] =
      " = '".toList ++ (e.2 ++ "'".toList) :=
    congrArg (" = '".toList ++ ·) (List.append_nil _)
  rw [entryPieces, textOf_cons, Piece.text_whole (ModuleKey.word_ne_nil e.1), hvalue, entryText,
    List.append_assoc, List.append_assoc]

theorem spells_entryPieces {e : ModuleKey × Text} (he : '\'' ∉ e.2) {rest : Text}
    (hrest : Stops (· = '\'') rest) (before : Option TokenKind) :
    Spells before rest (entryPieces e) := by
  obtain ⟨key, v⟩ := e
  have hquoted := @fits_quotedPiece v rest he hrest
  cases key <;>
    exact ⟨⟨rfl, rfl, rfl⟩, rfl, ⟨rfl, rfl, rfl⟩, rfl, hquoted _, trivial⟩

/-- An entry is read as the key and the text it was made from. -/
theorem moduleEntry_tokensOf (e : ModuleKey × Text) (place : Position) (ps : List Piece) :
    ∃ t more, tokensOf place (entryPieces e ++ ps) = t :: more ∧ t.kind = .word ∧
      moduleEntry (t :: more) =
        .ok (e, tokensOf (place.advance (textOf (entryPieces e))) ps) := by
  obtain ⟨key, v⟩ := e
  let before := (place.advance (ModuleKey.word key)).advance [' ']
  let behind := (before.advance ['=']).advance [' ']
  let word := Token.whole .word (ModuleKey.word key) place
  let more := Token.whole .equals ['='] before :: tokensOf behind (quotedPiece v :: ps)
  have hplace : place.advance (textOf (entryPieces (key, v))) =
      behind.advance ('\'' :: (v ++ ['\''])) := by
    rw [textOf_entryPieces, entryText]
    simp only [behind, before, ← advance_append]
    simp
  have hword : value? (word :: more) = some (ModuleKey.word key, more) :=
    congrArg (fun t => some (t, more)) (List.append_nil _)
  have hstring : value? (tokensOf behind (quotedPiece v :: ps)) =
      some (v, tokensOf (place.advance (textOf (entryPieces (key, v)))) ps) := by
    rw [hplace]
    rfl
  have hequals : (Token.whole .equals ['='] before).kind = .equals := rfl
  refine ⟨word, more, ?_, rfl, ?_⟩
  · rw [entryPieces, List.cons_append, tokensOf_whole (ModuleKey.word_ne_nil key) (by decide)]
    rfl
  · rw [moduleEntry, hword]
    simp only [moduleKey?_word, more, if_pos hequals, hstring]

/-- The pieces of further entries and of the end of a table. -/
def entriesBehind (es : List (ModuleKey × Text)) : List Piece :=
  es.flatMap (fun e => Piece.whole .semicolon [';'] :: .gap ' ' [] :: entryPieces e) ++
    [.gap ' ' [], Piece.whole .rightBrace ['\x7d']]

theorem entriesBehind_cons (e : ModuleKey × Text) (es : List (ModuleKey × Text)) :
    entriesBehind (e :: es) =
      Piece.whole .semicolon [';'] :: .gap ' ' [] :: (entryPieces e ++ entriesBehind es) := by
  simp [entriesBehind]

theorem textOf_entriesBehind (es : List (ModuleKey × Text)) : textOf (entriesBehind es) =
    (es.map entryText).flatMap ("; ".toList ++ ·) ++ " \x7d".toList := by
  induction es with
  | nil => rfl
  | cons e es ih =>
    rw [entriesBehind_cons, textOf_cons, textOf_cons, textOf_append, ih, textOf_entryPieces,
      List.map_cons, List.flatMap_cons]
    simp [Piece.whole, Piece.text]

theorem stops_entriesBehind (es : List (ModuleKey × Text)) :
    Stops (· = '\'') (textOf (entriesBehind es) ++ []) := by
  cases es with
  | nil => rfl
  | cons e es =>
    rw [entriesBehind_cons]
    rfl

theorem spells_entriesBehind {es : List (ModuleKey × Text)} (hes : ∀ e ∈ es, '\'' ∉ e.2)
    (before : Option TokenKind) : Spells before [] (entriesBehind es) := by
  induction es generalizing before with
  | nil => exact ⟨rfl, ⟨rfl, rfl, rfl⟩, trivial⟩
  | cons e es ih =>
    rw [List.forall_mem_cons] at hes
    rw [entriesBehind_cons]
    refine ⟨⟨rfl, rfl, rfl⟩, rfl, spells_append.mpr ⟨?_, ih hes.2 _⟩⟩
    exact spells_entryPieces hes.1 (stops_entriesBehind es) _

theorem moduleTable_close {s : Option Text × ModuleSpec} {ts rest : List Token} {t : Token}
    {n : Text} (hgap : ts.dropWhile isEntryGap = t :: rest) (hclose : t.kind = .rightBrace)
    (hname : s.1 = some n) : moduleTable s ts = .ok ({ s.2 with name := n }, rest) := by
  rw [moduleTable]
  split
  · next h =>
    rw [hgap] at h
    cases h
  · next h =>
    rw [hgap] at h
    cases h
    rw [if_pos hclose, hname]

theorem moduleTable_entry {s : Option Text × ModuleSpec} {ts more rest : List Token} {t : Token}
    {e : ModuleKey × Text} (hgap : ts.dropWhile isEntryGap = t :: more)
    (hclose : t.kind ≠ .rightBrace) (hentry : moduleEntry (t :: more) = .ok (e, rest)) :
    moduleTable s ts = moduleTable (addEntry e.1 e.2 s) rest := by
  rw [moduleTable]
  split
  · next h =>
    rw [hgap] at h
    cases h
  · next h =>
    rw [hgap] at h
    cases h
    rw [if_neg hclose]
    split
    · next he =>
      rw [hentry] at he
      cases he
    · next he =>
      rw [hentry] at he
      cases he
      rfl

/-- A specification with several entries more, one after the other. -/
def addEntries (es : List (ModuleKey × Text)) (s : Option Text × ModuleSpec) :
    Option Text × ModuleSpec :=
  es.foldl (fun s e => addEntry e.1 e.2 s) s

/-- A table is read entry by entry. -/
theorem moduleTable_entriesBehind {es : List (ModuleKey × Text)} {s : Option Text × ModuleSpec}
    {n : Text} (hname : (addEntries es s).1 = some n) (place : Position) :
    moduleTable s (tokensOf place (entriesBehind es)) =
      .ok ({ (addEntries es s).2 with name := n }, []) := by
  induction es generalizing s place with
  | nil => exact moduleTable_close (t := Token.whole .rightBrace ['\x7d'] _) rfl rfl hname
  | cons e es ih =>
    let first := (place.advance [';']).advance [' ']
    obtain ⟨t, more, htokens, hkind, hentry⟩ := moduleEntry_tokensOf e first (entriesBehind es)
    have hgap : (tokensOf place (entriesBehind (e :: es))).dropWhile isEntryGap = t :: more := by
      rw [entriesBehind_cons, ← htokens, tokensOf_whole (by decide) (by decide)]
      rw [List.dropWhile_cons_of_pos rfl]
      change (tokensOf first (entryPieces e ++ entriesBehind es)).dropWhile isEntryGap = _
      rw [htokens, List.dropWhile_cons_of_neg (by simp [isEntryGap, hkind])]
    rw [moduleTable_entry hgap (by simp [hkind]) hentry]
    exact ih hname _

/-- The pieces of a table with at least one entry. -/
def tablePieces (e : ModuleKey × Text) (es : List (ModuleKey × Text)) : List Piece :=
  Piece.whole .atBrace "@\x7b".toList :: .gap ' ' [] :: (entryPieces e ++ entriesBehind es)

theorem textOf_tablePieces (e : ModuleKey × Text) (es : List (ModuleKey × Text)) :
    textOf (tablePieces e es) = "@\x7b ".toList ++
      Text.join "; " ((e :: es).map entryText) ++ " \x7d".toList := by
  rw [tablePieces, textOf_cons, textOf_cons, textOf_append, textOf_entryPieces,
    textOf_entriesBehind, List.map_cons, Text.join_cons]
  simp [Piece.whole, Piece.text]

theorem endsComment_tablePieces {e : ModuleKey × Text} {es : List (ModuleKey × Text)}
    (hline : ∀ d ∈ e :: es, d.2.all inLine = true) {front : Text}
    (hfront : front.all inLine = true) : EndsComment (front ++ textOf (tablePieces e es)) := by
  rw [List.forall_mem_cons] at hline
  have hclose : EndsComment " \x7d".toList := by
    refine ⟨by decide, ?_⟩
    rintro c ⟨⟩
    decide
  have hbehind : ((es.map entryText).flatMap ("; ".toList ++ ·)).all inLine = true := by
    simp only [List.all_eq_true, List.forall_mem_flatMap, List.forall_mem_map]
    intro d hd
    rw [← List.all_eq_true, List.all_append, entryText_line (hline.2 d hd)]
    rfl
  rw [textOf_tablePieces, List.map_cons, Text.join_cons, ← List.append_assoc]
  refine hclose.append ?_ (List.cons_ne_nil _ _)
  rw [List.all_append, List.all_append, List.all_append, hfront, entryText_line hline.1, hbehind]
  rfl

/-- A table is read as all of its entries, which name a module. -/
theorem moduleSpec_tablePieces {e : ModuleKey × Text} {es : List (ModuleKey × Text)} {n : Text}
    (hname : (addEntries (e :: es) (none, ⟨[], none, none, none, none⟩)).1 = some n)
    (place : Position) : moduleSpec (tokensOf place (tablePieces e es)) =
      .ok ({ (addEntries (e :: es) (none, ⟨[], none, none, none, none⟩)).2 with name := n }, []) := by
  let first := (place.advance "@\x7b".toList).advance [' ']
  obtain ⟨t, more, htokens, hkind, hentry⟩ := moduleEntry_tokensOf e first (entriesBehind es)
  have hopen : (Token.whole .atBrace "@\x7b".toList place).kind = .atBrace := rfl
  have hgap : (t :: more).dropWhile isEntryGap = t :: more :=
    List.dropWhile_cons_of_neg (by simp [isEntryGap, hkind])
  rw [tablePieces, tokensOf_whole (by decide) (by decide)]
  change moduleSpec (_ :: tokensOf first (entryPieces e ++ entriesBehind es)) = _
  rw [htokens, moduleSpec, if_pos hopen, moduleTable_entry hgap (by simp [hkind]) hentry]
  exact @moduleTable_entriesBehind es _ _ hname _

/-- A module that is asked for by a table. -/
theorem isOptions_moduleTable {e : ModuleKey × Text} {es : List (ModuleKey × Text)} {n : Text}
    {m : ModuleSpec} (hquotes : ∀ d ∈ e :: es, '\'' ∉ d.2)
    (hline : ∀ d ∈ e :: es, d.2.all inLine = true)
    (hname : (addEntries (e :: es) (none, ⟨[], none, none, none, none⟩)).1 = some n)
    (hm : m = { (addEntries (e :: es) (none, ⟨[], none, none, none, none⟩)).2 with name := n }) :
    IsOptions (optionPieces "-Modules" (.gap ' ' [] :: tablePieces e es)) { modules := [m] } := by
  rw [List.forall_mem_cons] at hquotes
  refine isOptions_module ?_ ?_ ?_
  · intro before
    refine ⟨⟨rfl, rfl, rfl⟩, rfl, spells_append.mpr ⟨?_, spells_entriesBehind hquotes.2 _⟩⟩
    exact spells_entryPieces hquotes.1 (stops_entriesBehind es) _
  · have hoption : "-Modules ".toList.all inLine = true := by decide
    exact endsComment_tablePieces hline hoption
  · intro place
    rw [hm]
    exact moduleSpec_tablePieces hname place

end ScriptModule
