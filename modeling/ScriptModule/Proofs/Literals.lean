/-
  ScriptModule/Proofs/Literals.lean
  =================================
  **Literals are read back.**  A text between single quotes, with its own quotes doubled,
  is one string token with that text as its value, and no other text is.  In the written
  commands every literal ends where it was ended, so the names in a command are its
  strings, in their order.
-/
import ScriptModule.Artifact.Snippet
import ScriptModule.Proofs.EnumNormalForm

namespace ScriptModule

open Lexeme

/-! ### Doubled quotes -/

namespace Literal

/-- A text as it stands between the quotes. -/
def doubled (t : Text) : Text := Text.replaceChar '\'' "''" t

@[simp] theorem doubled_nil : doubled [] = [] := rfl

@[simp] theorem doubled_quote (t : Text) : doubled ('\'' :: t) = '\'' :: '\'' :: doubled t := rfl

theorem doubled_cons {c : Char} (h : c ≠ '\'') (t : Text) : doubled (c :: t) = c :: doubled t := by
  simp [doubled, Text.replaceChar, h]

theorem doubled_of_not_mem {t : Text} (h : '\'' ∉ t) : doubled t = t := by
  induction t with
  | nil => rfl
  | cons c t ih =>
    rw [List.mem_cons, not_or] at h
    rw [doubled_cons (Ne.symm h.1), ih h.2]

theorem quote_eq (t : Text) : quote t = '\'' :: (doubled t ++ ['\'']) := rfl

end Literal

open Literal

namespace Lexeme

theorem singleQuoted?_doubled (v : Text) {rest : Text} (hrest : Stops (· = '\'') rest) :
    singleQuoted? (doubled v ++ '\'' :: rest) = some ((doubled v).length + 1, v) := by
  induction v with
  | nil =>
    rw [doubled_nil, List.nil_append, singleQuoted?]
    · rfl
    · rintro r rfl
      cases hrest
  | cons c v ih =>
    by_cases hc : c = '\''
    · subst hc
      rw [doubled_quote, List.cons_append, List.cons_append, singleQuoted?, ih]
      rfl
    · rw [doubled_cons hc, List.cons_append, singleQuoted?, ih]
      · rfl
      · exact fun r h => absurd h hc
      · exact hc

/-- A single-quoted string ends at the first quote that is not doubled. -/
theorem singleQuoted?_eq_some {t v : Text} {n : Nat} (h : singleQuoted? t = some (n, v)) :
    ∃ rest, t = doubled v ++ '\'' :: rest ∧ n = (doubled v).length + 1 := by
  fun_induction singleQuoted? t generalizing n v with
  | case1 => cases h
  | case2 r ih =>
    obtain ⟨⟨m, u⟩, hread, heq⟩ := Option.map_eq_some_iff.mp h
    cases heq
    obtain ⟨rest, rfl, rfl⟩ := ih hread
    exact ⟨rest, rfl, rfl⟩
  | case3 r hr =>
    cases h
    exact ⟨r, rfl, rfl⟩
  | case4 c r hr hc ih =>
    obtain ⟨⟨m, u⟩, hread, heq⟩ := Option.map_eq_some_iff.mp h
    cases heq
    obtain ⟨rest, rfl, rfl⟩ := ih hread
    refine ⟨rest, ?_, ?_⟩ <;> rw [doubled_cons hc]
    · rfl
    · rfl

end Lexeme

/-! ### One literal -/

/-- The token of a literal at a place. -/
def Literal.token (v : Text) (place : Position) : Token :=
  ⟨.string, quote v, place, place.advance (quote v), some v⟩

/-- The piece that a literal is. -/
def literalPiece (v : Text) : Piece :=
  .lexeme '\'' (doubled v ++ ['\'']) ⟨.string, (doubled v).length + 1, some v⟩

theorem text_literalPiece (v : Text) : (literalPiece v).text = quote v := rfl

theorem fits_literalPiece (v : Text) {rest : Text} (hrest : Stops (· = '\'') rest) (sign : Bool) :
    (literalPiece v).Fits sign rest := by
  refine ⟨rfl, ?_, List.length_append⟩
  change ofString (singleQuoted? ((doubled v ++ ['\'']) ++ rest)) = _
  rw [List.append_assoc, List.singleton_append, singleQuoted?_doubled v hrest]
  rfl

/-- A literal by itself is one token. -/
theorem scan_quote (v : Text) :
    scan (quote v) = .ok ⟨[Literal.token v .start], Position.start.advance (quote v)⟩ := by
  have hspells : Spells none [] [literalPiece v] := ⟨@fits_literalPiece v [] rfl _, trivial⟩
  have hscan := scanFrom_textOf hspells .start
  have htoken : tokensOf .start [literalPiece v] = [Literal.token v .start] := by
    have hlen : (doubled v ++ ['\'']).length = (doubled v).length + 1 := List.length_append
    rw [literalPiece, tokensOf, tokensOf, Lexeme.token, text_eq_shown hlen, shown, if_neg (by simp),
      ← hlen, List.take_length]
    rfl
  rw [textOf_cons, textOf_nil, List.append_nil, text_literalPiece, htoken] at hscan
  exact hscan

/-- A string token that starts with a single quote is the literal of its value. -/
theorem text_eq_quote {source : Text} {s : Scan} (h : scan source = .ok s) {t : Token}
    (ht : t ∈ s.tokens) (hkind : t.kind = .string) (hquote : t.text.head? = some '\'') :
    ∃ v, t.value = some v ∧ t.text = quote v := by
  obtain ⟨ps, rfl, hspells, htokens⟩ := exists_pieces h
  rw [htokens] at ht
  obtain ⟨i, hi⟩ := List.mem_iff_getElem?.mp ht
  obtain ⟨front, c, w, l, back, rfl, -, rfl⟩ := exists_lexeme hi
  obtain ⟨-, hread, hlen⟩ := (spells_append.mp hspells).2.1
  have hl : l.kind = .string := hkind
  have htext : (l.token (Position.start.advance (textOf front)) c w).text = c :: w := by
    change l.text c w = _
    rw [text_eq_shown hlen, shown, if_neg (by simp [hl])]
  rw [htext] at hquote ⊢
  obtain rfl : c = '\'' := Option.some.inj hquote
  have hread : ofString (singleQuoted? (w ++ (textOf back ++ []))) = .ok l := hread
  rcases hsingle : singleQuoted? (w ++ (textOf back ++ [])) with _ | ⟨n, v⟩ <;>
    rw [hsingle] at hread <;> cases hread
  obtain ⟨rest, hsplit, rfl⟩ := singleQuoted?_eq_some hsingle
  refine ⟨v, rfl, ?_⟩
  have hw : w = doubled v ++ ['\''] := by
    have hsame : w ++ (textOf back ++ []) = (doubled v ++ ['\'']) ++ rest := by
      rw [hsplit, List.append_assoc, List.singleton_append]
    refine (List.append_inj hsame ?_).1
    rw [List.length_append]
    exact hlen
  rw [hw, quote_eq]

/-! ### Rows of literals -/

/-- The values of the strings among tokens. -/
def Scan.strings (s : Scan) : List (Option Text) :=
  (s.tokens.filter fun t => t.kind = .string).map Token.value

def Piece.string? : Piece → Option (Option Text)
  | .gap _ _ => none
  | .lexeme _ _ l => if l.kind = .string then some l.value else none

theorem strings_tokensOf (place : Position) (ps : List Piece) :
    ((tokensOf place ps).filter fun t => t.kind = .string).map Token.value =
      ps.filterMap Piece.string? := by
  induction ps generalizing place with
  | nil => rfl
  | cons p ps ih =>
    cases p with
    | gap c w => exact ih _
    | lexeme c w l =>
      by_cases hl : l.kind = .string
      · have hvalue : (l.token place c w).value = l.value := rfl
        simp [tokensOf, Piece.string?, hl, ih, hvalue]
      · simp [tokensOf, Piece.string?, hl, ih]

/-- Pieces that are cut alike wherever they stand, with no string among them. -/
structure IsFrame (ps : List Piece) : Prop where
  spells : ∀ before rest, Spells before rest ps
  strings : ps.filterMap Piece.string? = []

/-- Pieces that are cut alike in front of anything but a quote, with the values of their
    strings. -/
structure Quotes (ps : List Piece) (vs : List Text) : Prop where
  spells : ∀ before {rest}, Stops (· = '\'') rest → Spells before rest ps
  strings : ps.filterMap Piece.string? = vs.map some

theorem IsFrame.quotes {ps : List Piece} (h : IsFrame ps) : Quotes ps [] :=
  ⟨fun before _ _ => h.spells before _, h.strings⟩

theorem IsFrame.append {fs ps : List Piece} {vs : List Text} (hf : IsFrame fs)
    (h : Quotes ps vs) : Quotes (fs ++ ps) vs := by
  constructor
  · intro before rest hrest
    exact spells_append.mpr ⟨hf.spells before _, h.spells _ hrest⟩
  · rw [List.filterMap_append, hf.strings, List.nil_append, h.strings]

/-- What does not go on with a quote may stand behind a literal. -/
theorem Quotes.append {ps qs : List Piece} {vs ws : List Text} (hp : Quotes ps vs)
    (hq : Quotes qs ws)
    (hstop : ∀ {rest}, Stops (· = '\'') rest → Stops (· = '\'') (textOf qs ++ rest)) :
    Quotes (ps ++ qs) (vs ++ ws) := by
  constructor
  · intro before rest hrest
    exact spells_append.mpr ⟨hp.spells before (hstop hrest), hq.spells _ hrest⟩
  · rw [List.filterMap_append, hp.strings, hq.strings, List.map_append]

/-- The strings of a text are those that its pieces quote. -/
theorem Quotes.scan {ps : List Piece} {vs : List Text} (h : Quotes ps vs) :
    ∃ s, scan (textOf ps) = .ok s ∧ s.strings = vs.map some := by
  refine ⟨_, scanFrom_textOf (h.spells none rfl) .start, ?_⟩
  rw [Scan.strings, strings_tokensOf, h.strings]

theorem quotes_literal (v : Text) : Quotes [literalPiece v] [v] :=
  ⟨fun _ _ hrest => ⟨fits_literalPiece v hrest _, trivial⟩, rfl⟩

/-! ### Lists -/

def separator : List Piece := [Piece.whole .comma [','], .gap ' ' []]

theorem isFrame_separator : IsFrame separator :=
  ⟨fun _ _ => ⟨⟨rfl, rfl, rfl⟩, rfl, trivial⟩, rfl⟩

/-- The pieces of a list. -/
def listPieces : List Text → List Piece
  | [] => [Piece.whole .atParen "@(".toList, Piece.whole .rightParen [')']]
  | v :: vs => literalPiece v :: vs.flatMap fun w => separator ++ [literalPiece w]

theorem textOf_listPieces (vs : List Text) : textOf (listPieces vs) = Literal.list vs := by
  cases vs with
  | nil => rfl
  | cons v vs =>
    have hmore : textOf (vs.flatMap fun w => separator ++ [literalPiece w]) =
        (vs.map quote).flatMap (", ".toList ++ ·) := by
      induction vs with
      | nil => rfl
      | cons w vs ih =>
        rw [List.flatMap_cons, textOf_append, ih, List.map_cons, List.flatMap_cons, textOf_append,
          textOf_cons, textOf_nil, List.append_nil, text_literalPiece]
        rfl
    rw [listPieces, textOf_cons, hmore, text_literalPiece]
    exact (Text.join_cons ", " (quote v) (vs.map quote)).symm

theorem quotes_list (vs : List Text) : Quotes (listPieces vs) vs := by
  cases vs with
  | nil => exact ⟨fun _ _ _ => ⟨⟨rfl, rfl, rfl⟩, ⟨rfl, rfl, rfl⟩, trivial⟩, rfl⟩
  | cons v vs =>
    have hmore : Quotes (vs.flatMap fun w => separator ++ [literalPiece w]) vs ∧
        ∀ {rest}, Stops (· = '\'') rest → Stops (· = '\'')
          (textOf (vs.flatMap fun w => separator ++ [literalPiece w]) ++ rest) := by
      induction vs with
      | nil => exact ⟨⟨fun _ _ _ => trivial, rfl⟩, fun hrest => hrest⟩
      | cons w vs ih =>
        refine ⟨?_, fun _ => rfl⟩
        exact (isFrame_separator.append (quotes_literal w)).append ih.1 ih.2
    exact (quotes_literal v).append hmore.1 hmore.2

/-! ### Commands -/

namespace Snippet

def aliasName : List Piece :=
  [Piece.whole .word "Set-Alias".toList, .gap ' ' [], Piece.whole .parameter "-Name".toList,
    .gap ' ' []]

def aliasValue : List Piece := [.gap ' ' [], Piece.whole .parameter "-Value".toList, .gap ' ' []]

theorem isFrame_aliasName : IsFrame aliasName :=
  ⟨fun _ _ => ⟨⟨rfl, rfl, rfl⟩, rfl, ⟨rfl, rfl, rfl⟩, rfl, trivial⟩, rfl⟩

theorem isFrame_aliasValue : IsFrame aliasValue :=
  ⟨fun _ _ => ⟨rfl, ⟨rfl, rfl, rfl⟩, rfl, trivial⟩, rfl⟩

theorem scan_setAlias (name target : Text) :
    ∃ s, scan (setAlias name target) = .ok s ∧ s.strings = [name, target].map some := by
  have hquotes : Quotes (aliasName ++ [literalPiece name] ++ (aliasValue ++ [literalPiece target]))
      [name, target] :=
    (isFrame_aliasName.append (quotes_literal name)).append
      (isFrame_aliasValue.append (quotes_literal target)) fun _ => rfl
  have htext : textOf (aliasName ++ [literalPiece name] ++
      (aliasValue ++ [literalPiece target])) = setAlias name target := by
    simp only [textOf_append, textOf_cons, textOf_nil, List.append_nil, text_literalPiece]
    rw [← List.append_assoc]
    rfl
  exact htext ▸ hquotes.scan

def exportFunctions : List Piece :=
  [Piece.whole .word "Export-ModuleMember".toList, .gap ' ' [],
    Piece.whole .parameter "-Function".toList, .gap ' ' []]

theorem isFrame_exportFunctions : IsFrame exportFunctions :=
  ⟨fun _ _ => ⟨⟨rfl, rfl, rfl⟩, rfl, ⟨rfl, rfl, rfl⟩, rfl, trivial⟩, rfl⟩

/-- The pieces of an option behind something else; there are none for an empty list. -/
def optionPieces (word : Text) : List Text → List Piece
  | [] => []
  | v :: vs => [.gap ' ' [], Piece.whole .parameter word, .gap ' ' []] ++ listPieces (v :: vs)

def exportOptions : List Text := ["-Alias", "-Variable"]

theorem quotes_option {word : Text} (h : word ∈ exportOptions) (vs : List Text) :
    Quotes (optionPieces word vs) vs := by
  cases vs with
  | nil => exact ⟨fun _ _ _ => trivial, rfl⟩
  | cons v vs =>
    have hframe : IsFrame [.gap ' ' [], Piece.whole .parameter word, .gap ' ' []] := by
      simp only [exportOptions, List.mem_cons, List.not_mem_nil, or_false] at h
      rcases h with rfl | rfl <;> exact ⟨fun _ _ => ⟨rfl, ⟨rfl, rfl, rfl⟩, rfl, trivial⟩, rfl⟩
    exact hframe.append (quotes_list (v :: vs))

theorem textOf_optionPieces {word : Text} (h : word ∈ exportOptions) (vs : List Text) :
    textOf (optionPieces word vs) = (option (word ++ [' ']) vs).flatMap (" ".toList ++ ·) := by
  cases vs with
  | nil => rfl
  | cons v vs =>
    have hlist : option (word ++ [' ']) (v :: vs) = [word ++ [' '] ++ Literal.list (v :: vs)] := rfl
    simp only [exportOptions, List.mem_cons, List.not_mem_nil, or_false] at h
    rw [optionPieces, textOf_append, textOf_listPieces, hlist, List.flatMap_singleton]
    rcases h with rfl | rfl <;> rfl

theorem stops_optionPieces (word : Text) (vs : List Text) {rest : Text}
    (hrest : Stops (· = '\'') rest) : Stops (· = '\'') (textOf (optionPieces word vs) ++ rest) := by
  cases vs with
  | nil => exact hrest
  | cons v vs => rfl

theorem scan_exports (functions aliases vars : List Text) :
    ∃ s, scan (exports functions aliases vars) = .ok s ∧
      s.strings = (functions ++ aliases ++ vars).map some := by
  have hquotes : Quotes (exportFunctions ++ listPieces functions ++ optionPieces "-Alias" aliases ++
      optionPieces "-Variable" vars) (functions ++ aliases ++ vars) := by
    refine Quotes.append (Quotes.append ?_ ?_ ?_) ?_ ?_
    · exact isFrame_exportFunctions.append (quotes_list functions)
    · exact quotes_option (by decide) aliases
    · exact stops_optionPieces _ _
    · exact quotes_option (by decide) vars
    · exact stops_optionPieces _ _
  have htext : textOf (exportFunctions ++ listPieces functions ++ optionPieces "-Alias" aliases ++
      optionPieces "-Variable" vars) = exports functions aliases vars := by
    rw [textOf_append, textOf_append, textOf_append, textOf_listPieces,
      textOf_optionPieces (by decide), textOf_optionPieces (by decide), exports, List.cons_append,
      Text.join_cons, List.flatMap_append, List.append_assoc]
    rfl
  exact htext ▸ hquotes.scan

/-- The first line of a format registration up to the names of the views. -/
def registrationTest : List Piece := [
  Piece.whole .word "if".toList, .gap ' ' [], Piece.whole .leftParen ['('],
  Piece.whole .parameter "-not".toList, .gap ' ' [], Piece.whole .leftParen ['('],
  Piece.whole .word "Get-FormatData".toList, .gap ' ' [], Piece.whole .pipe ['|'], .gap ' ' [],
  Piece.whole .word "ForEach-Object".toList, .gap ' ' [], Piece.whole .leftBrace ['\x7b'],
  .gap ' ' [], Piece.whole .variable "$_".toList, Piece.whole .dot ['.'],
  Piece.whole .word "FormatViewDefinition.Name".toList, .gap ' ' [],
  Piece.whole .rightBrace ['\x7d'], .gap ' ' [], Piece.whole .pipe ['|'], .gap ' ' [],
  Piece.whole .word "Where-Object".toList, .gap ' ' [], Piece.whole .leftBrace ['\x7b'],
  .gap ' ' [], Piece.whole .variable "$_".toList, .gap ' ' [],
  Piece.whole .parameter "-in".toList, .gap ' ' [], Piece.whole .atParen "@(".toList]

/-- What stands between the names of the views and the path. -/
def registrationLoad : List Piece := [
  Piece.whole .rightParen [')'], .gap ' ' [], Piece.whole .rightBrace ['\x7d'],
  Piece.whole .rightParen [')'], Piece.whole .rightParen [')'], .gap ' ' [],
  Piece.whole .leftBrace ['\x7b'], newlinePiece,
  .gap ' ' [], .gap ' ' [], .gap ' ' [], .gap ' ' [],
  Piece.whole .word "Update-FormatData".toList, .gap ' ' [],
  Piece.whole .parameter "-PrependPath".toList, .gap ' ' [], Piece.whole .leftParen ['('],
  Piece.whole .word "Join-Path".toList, .gap ' ' [],
  Piece.whole .variable "$PSScriptRoot".toList, .gap ' ' []]

def registrationEnd : List Piece :=
  [Piece.whole .rightParen [')'], newlinePiece, Piece.whole .rightBrace ['\x7d']]

theorem isFrame_registrationTest : IsFrame registrationTest := by
  refine ⟨fun before rest => ?_, rfl⟩
  repeat' constructor

theorem isFrame_registrationLoad : IsFrame registrationLoad := by
  refine ⟨fun before rest => ?_, rfl⟩
  repeat' constructor

theorem isFrame_registrationEnd : IsFrame registrationEnd :=
  ⟨fun _ _ => ⟨⟨rfl, rfl, rfl⟩, ⟨rfl, rfl, rfl⟩, ⟨rfl, rfl, rfl⟩, trivial⟩, rfl⟩

theorem textOf_registrationTest : textOf registrationTest =
    "if (-not (Get-FormatData | ForEach-Object \x7b $_.FormatViewDefinition.Name \x7d | ".toList ++
      "Where-Object \x7b $_ -in @(".toList := by
  decide +kernel

theorem textOf_registrationLoad : textOf registrationLoad =
    ") \x7d)) \x7b\n    ".toList ++
      "Update-FormatData -PrependPath (Join-Path $PSScriptRoot ".toList := by
  decide +kernel

theorem formatRegistration_eq (path : Text) (views : List Text) :
    formatRegistration path views =
      textOf registrationTest ++ (Literal.list views ++ (textOf registrationLoad ++
        (quote path ++ textOf registrationEnd))) := by
  have hlines : formatRegistration path views = Text.join "\n" [
      "if (-not (Get-FormatData | ForEach-Object \x7b $_.FormatViewDefinition.Name \x7d | ".toList ++
        "Where-Object \x7b $_ -in @(".toList ++ Literal.list views ++ ") \x7d)) \x7b".toList,
      "    ".toList ++ ("Update-FormatData -PrependPath (Join-Path $PSScriptRoot ".toList ++
        quote path ++ [')']), "\x7d"] := rfl
  rw [hlines, Text.join_cons, textOf_registrationTest, textOf_registrationLoad]
  simp only [List.flatMap_cons, List.flatMap_nil, List.append_assoc, List.append_nil]
  rfl

theorem scan_formatRegistration (path : Text) (views : List Text) :
    ∃ s, scan (formatRegistration path views) = .ok s ∧
      s.strings = (views ++ [path]).map some := by
  have hpath : Quotes (registrationLoad ++ ([literalPiece path] ++ registrationEnd))
      ([path] ++ []) :=
    isFrame_registrationLoad.append
      ((quotes_literal path).append isFrame_registrationEnd.quotes fun _ => rfl)
  have hquotes := isFrame_registrationTest.append
    ((quotes_list views).append hpath fun _ => rfl)
  have htext : textOf (registrationTest ++ (listPieces views ++ (registrationLoad ++
      ([literalPiece path] ++ registrationEnd)))) = formatRegistration path views := by
    rw [formatRegistration_eq, textOf_append, textOf_append, textOf_append, textOf_append,
      textOf_listPieces, textOf_cons, textOf_nil, List.append_nil, text_literalPiece]
  rw [List.append_nil] at hquotes
  exact htext ▸ hquotes.scan

/-- **Quoted names are read back.**  Every text in quotes is scanned as one string with the
    text as its value, and every string token in single quotes is written so; the strings of
    a written command are the names that it was written with, in their order. -/
theorem strings_readBack :
    (∀ v, scan (quote v) = .ok ⟨[Literal.token v .start], Position.start.advance (quote v)⟩) ∧
    (∀ source s, scan source = .ok s → ∀ t ∈ s.tokens, t.kind = .string →
      t.text.head? = some '\'' → ∃ v, t.value = some v ∧ t.text = quote v) ∧
    (∀ name target, ∃ s, scan (setAlias name target) = .ok s ∧
      s.strings = [name, target].map some) ∧
    (∀ functions aliases vars, ∃ s, scan (exports functions aliases vars) = .ok s ∧
      s.strings = (functions ++ aliases ++ vars).map some) ∧
    (∀ path views, ∃ s, scan (formatRegistration path views) = .ok s ∧
      s.strings = (views ++ [path]).map some) := by
  refine ⟨scan_quote, ?_, scan_setAlias, scan_exports, scan_formatRegistration⟩
  intro source s h t ht hkind hquote
  exact text_eq_quote h ht hkind hquote

/-- A string with a quote in it, behind a word and in front of a word. -/
theorem strings_readBack_doubled :
    ∃ s, scan "Write 'it''s' now".toList = .ok s ∧ ∃ t ∈ s.tokens, t.kind = .string ∧
      t.text.head? = some '\'' ∧ t.value = some "it's".toList ∧
      ∃ v, t.value = some v ∧ t.text = quote v := by
  have hrun : ((scan "Write 'it''s' now".toList).toOption.any fun s => s.tokens.any fun t =>
      t.kind = .string ∧ t.text.head? = some '\'' ∧ t.value = some "it's".toList) = true := by
    decide +kernel
  obtain ⟨s, hs, hany⟩ := toOption_any.mp hrun
  obtain ⟨t, ht, hfacts⟩ := List.any_eq_true.mp hany
  obtain ⟨hkind, hquote, hvalue⟩ := of_decide_eq_true hfacts
  exact ⟨s, hs, t, ht, hkind, hquote, hvalue, strings_readBack.2.1 _ s hs t ht hkind hquote⟩

end Snippet

end ScriptModule
