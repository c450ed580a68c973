/-
  ScriptModule/Proofs/ImportLines.lean
  ====================================
  **Imports are read back.**  Merged imports are printed one a line, each under its bare
  name.  A name that reaches from its first to its last character with nothing in it that
  ends a directive, and that is more than one string, is read back as it stands.
-/
import Mathlib
import ScriptModule.Proofs.Excerpt
import ScriptModule.Proofs.ImportNames
import ScriptModule.Proofs.Lines

namespace ScriptModule

open Lexeme Script Grammar

/-! ### Bare names -/

/-- Whether tokens are one string and nothing else; its content is then the name. -/
def isLoneString : List Token → Bool
  | [t] => t.kind == .string
  | _ => false

/-- Whether a name may stand bare at the end of a line: behind a word, its tokens are parts
    of a name from the first to the last character, more than one string, and it does not
    continue the line. -/
def standsBare (name : Text) : Bool :=
  (scanFrom (some .word) .start name).toOption.any fun s =>
    s.tokens.all isNamePart && !isLoneString s.tokens &&
      s.tokens.head?.any (·.start.offset == 0) &&
      s.tokens.getLast?.any (·.stop.offset == name.length) && name.getLast? != some '\x60'

/-- Pieces of a name that may stand bare. -/
structure IsBareName (qs : List Piece) : Prop where
  spells : ∀ {rest : Text}, IsLineEnd rest → Spells (some .word) rest qs
  tokens : ∀ place, ∃ first more, tokensOf place qs = first :: more ∧
    (∀ t ∈ first :: more, isNamePart t = true) ∧
    (more.isEmpty && first.kind == .string) = false ∧ first.start = place ∧
    (more.getLast?.getD first).stop = place.advance (textOf qs)

/-- At the end of a line pieces stay what they are, if the last one is a lexeme that does not
    continue the line. -/
theorem Spells.at_lineEnd {before : Option TokenKind} {front : List Piece} {c : Char} {w : Text}
    {l : Lexeme} (h : Spells before [] (front ++ [.lexeme c w l]))
    (hback : c :: w ≠ ['\x60']) {rest : Text} (hrest : IsLineEnd rest) :
    Spells before rest (front ++ [.lexeme c w l]) := by
  rcases hrest with rfl | ⟨r, rfl⟩
  · exact h
  · refine h.change_rest (Ahead.newline r []) ?_ ?_
    · intro hopens
      cases hopens
    · intro p hp hopen
      rw [List.getLast?_concat] at hp
      obtain rfl := Option.some.inj hp
      rcases hopen with hopen | hopen
      · exact absurd hopen hback
      · -- a backtick in front of a carriage return is skipped, not read
        obtain ⟨rfl, rfl⟩ := List.cons.inj hopen
        have hgap := (spells_append.mp h).2.1.1
        cases hgap

theorem exists_isBareName {name : Text} (h : standsBare name = true) :
    ∃ qs, textOf qs = name ∧ IsBareName qs := by
  unfold standsBare at h
  obtain ⟨s, hscan, hname⟩ := toOption_any.mp h
  simp only [Bool.and_eq_true, bne_iff_ne, ne_eq] at hname
  obtain ⟨⟨⟨⟨hparts, hstring⟩, hfirst⟩, hlast⟩, hback⟩ := hname
  obtain ⟨qs, rfl, hspells, htokens⟩ := exists_pieces hscan
  rcases hcons : s.tokens with _ | ⟨first, more⟩
  · rw [hcons] at hfirst
    cases hfirst
  · rw [hcons] at htokens hparts hstring hfirst hlast
    have hstart : first.start.offset = 0 := by simpa using hfirst
    have hstop : (more.getLast?.getD first).stop.offset = (textOf qs).length := by
      simpa [List.getLast?_cons] using hlast
    refine ⟨qs, rfl, ?_, ?_⟩
    · intro rest hrest
      obtain ⟨init, hinit⟩ := List.getLast?_eq_some_iff.mp (@List.getLast?_cons _ more first)
      have hend : Position.start.offset + (textOf qs).length ≤
          (more.getLast?.getD first).stop.offset := by
        rw [hstop]
        exact (Nat.zero_add _).le
      obtain ⟨front, c, w, l, rfl, -, -, -⟩ :=
        exists_last_lexeme hspells (htokens.symm.trans hinit) hend
      refine hspells.at_lineEnd ?_ hrest
      intro hopen
      rw [textOf_append, textOf_cons, Piece.text, hopen] at hback
      simp at hback
    · intro place
      have hplaced := tokens_excerpt hspells .start place
      rw [← htokens] at hplaced
      refine ⟨(excerpt .start place (textOf qs)).token first,
        more.map (excerpt .start place (textOf qs)).token, ?_, ?_, ?_, ?_, ?_⟩
      · exact hplaced.symm.trans (List.append_nil _)
      · intro t ht
        rw [← List.map_cons] at ht
        obtain ⟨u, hu, rfl⟩ := List.mem_map.mp ht
        exact List.all_eq_true.mp hparts u hu
      · rcases more with _ | ⟨t, more⟩
        · simpa [isLoneString] using hstring
        · rfl
      · change place.advance ((textOf qs).take (first.start.offset - 0)) = place
        rw [hstart]
        rfl
      · rw [Recast.getLast?_map_token]
        change place.advance ((textOf qs).take ((more.getLast?.getD first).stop.offset - 0)) = _
        rw [hstop, Nat.sub_zero, List.take_length]

/-! ### Directives -/

/-- The kinds of imports that are kept, with the words they are printed by. -/
def keptKinds : List (ImportKind × Text) :=
  [(.names, "namespace".toList), (.assembly, "assembly".toList)]

/-- The pieces of a directive. -/
def importPieces (word : Text) (name : List Piece) : List Piece :=
  [Piece.whole .usingWord "using".toList, .gap ' ' [], Piece.whole .word word, .gap ' ' []] ++ name

theorem textOf_importPieces {k : ImportKind} {word : Text} (hk : (k, word) ∈ keptKinds)
    (name : List Piece) : textOf (importPieces word name) =
      ("using ".toList ++ word ++ [' ']) ++ textOf name := by
  have hne : word ≠ [] := by
    rintro rfl
    revert hk
    cases k <;> decide
  obtain ⟨c, w, rfl⟩ := List.exists_cons_of_ne_nil hne
  simp [importPieces, Piece.whole, Piece.text]

/-- The tokens of a name are what a directive takes behind its word. -/
theorem takeWhile_isNamePart {us ts : List Token} (hus : ∀ t ∈ us, isNamePart t = true)
    (hts : ∀ t ∈ ts.head?, t.kind = .newline) :
    (us ++ ts).takeWhile isNamePart = us ∧ (us ++ ts).dropWhile isNamePart = ts := by
  rw [List.takeWhile_append_of_pos hus, List.dropWhile_append_of_pos hus]
  cases ts with
  | nil => simp
  | cons t ts =>
    have hkind : t.kind = .newline := hts t rfl
    have hend : ¬ isNamePart t = true := by simp [isNamePart, endsDirective, hkind]
    rw [List.takeWhile_cons_of_neg hend, List.dropWhile_cons_of_neg hend, List.append_nil]
    exact ⟨rfl, rfl⟩

/-- A line with a bare name is one import of it. -/
theorem isLine_import {k : ImportKind} {word : Text} (hk : (k, word) ∈ keptKinds)
    {name : List Piece} (hname : IsBareName name) :
    IsLine (importPieces word name) (.importing ⟨k, Text.trim (textOf name)⟩) := by
  have hword : word ≠ [] ∧ importKind word = k := by
    revert hk
    simp only [keptKinds, List.mem_cons, Prod.mk.injEq, List.not_mem_nil, or_false]
    rintro (⟨rfl, rfl⟩ | ⟨rfl, rfl⟩) <;> decide
  constructor
  · intro before rest hrest
    refine spells_append.mpr ⟨?_, hname.spells hrest⟩
    revert hk
    simp only [keptKinds, List.mem_cons, Prod.mk.injEq, List.not_mem_nil, or_false]
    rintro (⟨-, rfl⟩ | ⟨-, rfl⟩)
    · exact ⟨⟨rfl, rfl, rfl⟩, rfl, ⟨rfl, rfl, rfl⟩, rfl, trivial⟩
    · exact ⟨⟨rfl, rfl, rfl⟩, rfl, ⟨rfl, rfl, rfl⟩, rfl, trivial⟩
  · intro sc front back ts sts hsource hts hmore
    rw [textOf_importPieces hk] at hsource
    have hslice : sc.source = (front ++ ("using ".toList ++ word ++ [' '])) ++
        (textOf name ++ back) := by
      rw [hsource]
      simp only [List.append_assoc]
    obtain ⟨first, more, htokens, hparts, hstring, hstart, hstop⟩ := hname.tokens
      (Position.start.advance (front ++ ("using ".toList ++ word ++ [' '])))
    rw [← advance_append] at hstop
    obtain ⟨htake, hdrop⟩ := takeWhile_isNamePart hparts hts
    have hall : ∃ t kw, tokensOf (Position.start.advance front) (importPieces word name) =
        t :: kw :: first :: more ∧ t.kind = .usingWord ∧ kw.kind = .word ∧ kw.text = word := by
      refine ⟨Token.whole .usingWord "using".toList (Position.start.advance front),
        Token.whole .word word (Position.start.advance (front ++ "using ".toList)), ?_,
        rfl, rfl, rfl⟩
      rw [← htokens, importPieces, List.cons_append, tokensOf_whole (by decide) (by decide)]
      simp only [List.cons_append, List.nil_append, tokensOf, ← advance_append]
      rw [tokensOf_whole hword.1 (by decide)]
      simp [tokensOf, ← advance_append]
    obtain ⟨t, kw, hline, ht, hkw, hkwtext⟩ := hall
    have himport := @Importing.intro sc kw first ((first :: more) ++ ts) more
      (by rw [hkw]; rfl) htake
    rw [hdrop, hkwtext, hword.2, importName, hstring, if_neg Bool.false_ne_true,
      slice_mid hslice hstart hstop] at himport
    rw [hline]
    exact ⟨_, rfl, .importing ht himport hmore⟩

/-! ### Rendered imports -/

namespace Imports

theorem render_eq (i : Imports) : i.render =
    i.namespaces.values.map ("using ".toList ++ "namespace".toList ++ [' '] ++ ·) ++
      i.assemblies.values.map ("using ".toList ++ "assembly".toList ++ [' '] ++ ·) := rfl

/-- **Imports are read back.**  If every kept name may stand bare, and each kept namespace
    is shown in the spelling that it would itself be shown in, then the rendered lines are
    one import each, and these are merged into the same imports: the same keys and the same
    names in the same order. -/
theorem classify_importLines (file : Option Text) {given : List Statement}
    (hnames : ∀ d ∈ (ofStatements given).namespaces.values,
      standsBare d = true ∧ Namespace.canonical d = d)
    (hassemblies : ∀ d ∈ (ofStatements given).assemblies.values, standsBare d = true) :
    ∃ sts, classify file (Text.join "\n" (ofStatements given).render) = .ok sts ∧
      (∀ st ∈ sts, ∃ m, st.content = .importing m) ∧ ofStatements sts = ofStatements given := by
  generalize hi : ofStatements given = i at *
  let line (k : ImportKind) (word d : Text) : Text × Content :=
    ("using ".toList ++ word ++ [' '] ++ d, .importing ⟨k, Text.trim d⟩)
  let ls := i.namespaces.values.map (line .names "namespace") ++
    i.assemblies.values.map (line .assembly "assembly")
  have hline : ∀ {k word d}, (k, word) ∈ keptKinds → standsBare d = true →
      ∃ ps, textOf ps = (line k word d).1 ∧ IsLine ps (line k word d).2 := by
    intro k word d hk hd
    obtain ⟨qs, rfl, hname⟩ := exists_isBareName hd
    exact ⟨importPieces word qs, textOf_importPieces hk qs, isLine_import hk hname⟩
  have hls : ∀ l ∈ ls, ∃ ps, textOf ps = l.1 ∧ IsLine ps l.2 := by
    intro l hl
    rcases List.mem_append.mp hl with hl | hl
    · obtain ⟨d, hd, rfl⟩ := List.mem_map.mp hl
      exact hline (by decide) (hnames d hd).1
    · obtain ⟨d, hd, rfl⟩ := List.mem_map.mp hl
      exact hline (by decide) (hassemblies d hd)
  obtain ⟨sts, hsts, hcontents⟩ := classify_lines file hls
  have hrender : ls.map Prod.fst = i.render := by
    rw [render_eq, List.map_append, List.map_map, List.map_map]
    rfl
  have hall : sts.map Statement.content =
      i.namespaces.values.map (fun d => .importing ⟨.names, Text.trim d⟩) ++
        i.assemblies.values.map fun d => .importing ⟨.assembly, Text.trim d⟩ := by
    rw [hcontents, List.map_append, List.map_map, List.map_map]
    rfl
  rw [hrender] at hsts
  refine ⟨sts, hsts, ?_, ?_⟩
  · intro st hst
    have hmem := List.mem_map_of_mem (f := Statement.content) hst
    rw [hall, List.mem_append, List.mem_map, List.mem_map] at hmem
    rcases hmem with ⟨d, -, hd⟩ | ⟨d, -, hd⟩
    · exact ⟨_, hd.symm⟩
    · exact ⟨_, hd.symm⟩
  · have hkept := isKept_ofStatements given
    rw [hi] at hkept
    exact hkept.ofStatements_eq (fun d hd => (hnames d hd).2) hall

/-- A namespace in two casings, and an assembly with its clauses in another order. -/
theorem classify_importLines_casings :
    let source := "using namespace system.linq
using assembly 'Foo, Version = 1.0, Culture=neutral'; using namespace SYSTEM.Linq # again".toList
    ∃ given, classify none source = .ok given ∧ given.length = 3 ∧
      (ofStatements given).render = ["using namespace System.Linq".toList,
        "using assembly Foo, Culture=neutral, Version=1.0".toList] ∧
      (∀ d ∈ (ofStatements given).namespaces.values,
        standsBare d = true ∧ Namespace.canonical d = d) ∧
      (∀ d ∈ (ofStatements given).assemblies.values, standsBare d = true) ∧
      ∃ sts, classify none (Text.join "\n" (ofStatements given).render) = .ok sts ∧
        (∀ st ∈ sts, ∃ m, st.content = .importing m) ∧ ofStatements sts = ofStatements given := by
  intro source
  let imported (k : ImportKind) (n : String) : Statement := ⟨.importing ⟨k, n⟩, none, none, []⟩
  let same : List Statement := [imported .names "system.linq",
    imported .assembly "Foo, Version = 1.0, Culture=neutral", imported .names "SYSTEM.Linq"]
  have hrun : ((classify none source).toOption.any fun given =>
      given.map Statement.content = same.map Statement.content) = true := by decide +kernel
  obtain ⟨given, hgiven, hrun⟩ := toOption_any.mp hrun
  have hcontents := of_decide_eq_true hrun
  have hlength : given.length = 3 := by
    rw [← List.length_map (f := Statement.content), hcontents]
    rfl
  have hnames : (ofStatements given).namespaces.values = ["System.Linq".toList] := by
    rw [ofStatements_congr hcontents]
    cbv
  have hassemblies : (ofStatements given).assemblies.values =
      ["Foo, Culture=neutral, Version=1.0".toList] := by
    rw [ofStatements_congr hcontents]
    cbv
  have hbare : ∀ d ∈ (ofStatements given).namespaces.values,
      standsBare d = true ∧ Namespace.canonical d = d := by
    rw [hnames]
    decide +kernel
  have hbare' : ∀ d ∈ (ofStatements given).assemblies.values, standsBare d = true := by
    rw [hassemblies]
    decide +kernel
  refine ⟨given, hgiven, hlength, ?_, hbare, hbare', classify_importLines none hbare hbare'⟩
  rw [render, hnames, hassemblies]
  rfl

/-- Whether the rendered imports of statements are read back as these imports. -/
def ReadsBack (given : List Statement) : Prop :=
  ∃ sts, classify none (Text.join "\n" (ofStatements given).render) = .ok sts ∧
    ofStatements sts = ofStatements given

/-- A quoted name with a semicolon is printed without its quotes and ends there; a name that
    is longer in capitals is shown in yet another spelling. -/
theorem classify_importLines_loses :
    (∃ given, classify none "using namespace 'a;b'".toList = .ok given ∧ ¬ ReadsBack given) ∧
      ∃ given, classify none "using namespace ßa".toList = .ok given ∧ ¬ ReadsBack given := by
  constructor
  · have hrun : ((classify none "using namespace 'a;b'".toList).toOption.any fun given =>
        !(classify none (Text.join "\n" (ofStatements given).render)).toOption.isSome) = true := by
      decide +kernel
    obtain ⟨given, hgiven, hrun⟩ := toOption_any.mp hrun
    refine ⟨given, hgiven, ?_⟩
    rintro ⟨sts, hsts, -⟩
    rw [hsts] at hrun
    cases hrun
  · have hrun : ((classify none "using namespace ßa".toList).toOption.any fun given =>
        (classify none (Text.join "\n" (ofStatements given).render)).toOption.all fun sts =>
          decide ((ofStatements sts).namespaces.values ≠
            (ofStatements given).namespaces.values)) = true := by
      decide +kernel
    obtain ⟨given, hgiven, hrun⟩ := toOption_any.mp hrun
    refine ⟨given, hgiven, ?_⟩
    rintro ⟨sts, hsts, hsame⟩
    rw [hsts] at hrun
    have hne : (ofStatements sts).namespaces.values ≠ (ofStatements given).namespaces.values :=
      of_decide_eq_true hrun
    rw [hsame] at hne
    exact hne rfl

end Imports
end ScriptModule
