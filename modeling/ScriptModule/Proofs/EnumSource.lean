/-
  ScriptModule/Proofs/EnumSource.lean
  ===================================
  **Enumerations of sources.**  In an enumeration that was read from a source each name is
  one word, and each attribute is a group in brackets that is read alike wherever it
  stands.
-/
import ScriptModule.Proofs.Composition

namespace ScriptModule

open Lexeme

/-! ### Names -/

/-- The lexeme of a kind that is all of a text. -/
def Piece.whole (kind : TokenKind) (t : Text) : Piece :=
  .lexeme (t.headD ' ') t.tail ⟨kind, t.tail.length, none⟩

/-- A text that is one word in front of anything that does not go on with it. -/
structure IsName (n : Text) : Prop where
  ne_nil : n ≠ []
  fits : ∀ {sign : Bool} {rest : Text}, Stops isWordChar rest →
    (Piece.whole (wordKind n) n).Fits sign rest

theorem isName_of_word {sign : Bool} {c : Char} {w rest : Text} {l : Lexeme}
    (h : (Piece.lexeme c w l).Fits sign rest) (hname : l.kind.isName = true) :
    IsName (c :: w) := by
  obtain ⟨hread, hlen⟩ := h.2
  have hplain := (word_of_read hread hname).2
  have hl : l = ⟨wordKind (c :: w), w.length, none⟩ := by
    unfold plain at hplain
    split at hplain
    · rw [hplain] at hname
      cases hname
    · split at hplain
      · rw [hplain] at hlen ⊢
        rw [takeWhile_of_runLength hlen.symm]
        exact congrArg (Lexeme.mk _ · none) hlen.symm
      · split at hplain
        all_goals
          rw [hplain] at hname
          cases hname
  constructor
  · exact List.cons_ne_nil c w
  · intro other new hnew
    rw [hl] at hname h
    exact h.word hname hnew other

theorem isName_of_mem {before : Option TokenKind} {place : Position} {ps : List Piece}
    {rest : Text} {t : Token} (h : Spells before rest ps) (ht : t ∈ tokensOf place ps)
    (hname : t.kind.isName = true) : IsName t.text := by
  obtain ⟨i, hi⟩ := List.mem_iff_getElem?.mp ht
  obtain ⟨front, c, w, l, back, rfl, -, rfl⟩ := exists_lexeme hi
  have hfits := (spells_append.mp h).2.1
  have htext : l.text c w = c :: w := by
    rw [text_eq_shown hfits.2.2, shown, if_neg]
    rintro ⟨hcomment, -⟩
    rw [token_kind, hcomment] at hname
    cases hname
  change IsName (l.text c w)
  rw [htext]
  exact isName_of_word hfits hname

/-! ### Groups -/

theorem exists_split {place : Position} {ps : List Piece} {a b : List Token} {t : Token}
    (h : tokensOf place ps = a ++ t :: b) :
    ∃ front c w l back, ps = front ++ .lexeme c w l :: back ∧ tokensOf place front = a ∧
      t = l.token (place.advance (textOf front)) c w ∧
      tokensOf (place.advance (textOf front ++ c :: w)) back = b := by
  have hget : (tokensOf place ps)[a.length]? = some t := by simp [h]
  obtain ⟨front, c, w, l, back, rfl, htake, rfl⟩ := exists_lexeme hget
  rw [h, List.take_left] at htake
  rw [tokensOf_append, ← htake] at h
  have hback := (List.cons.inj (List.append_cancel_left h)).2
  rw [← advance_append] at hback
  exact ⟨front, c, w, l, back, rfl, htake.symm, rfl, hback⟩

/-- The tokens inside a group balance. -/
theorem groupEnd?_balanced {depth : Nat} {ts rest : List Token} {t : Token}
    (h : groupEnd? depth ts = some (t, rest)) :
    ∃ us, ts = us ++ t :: rest ∧ depthAfter depth (us.map Token.kind) = some 0 := by
  fun_induction groupEnd? depth ts with
  | case1 => cases h
  | case2 depth u ts hopener ih =>
    obtain ⟨us, rfl, hdepth⟩ := ih h
    exact ⟨u :: us, rfl, (if_pos hopener).trans hdepth⟩
  | case3 u ts hopener hcloser =>
    cases h
    exact ⟨[], rfl, rfl⟩
  | case4 u ts hopener hcloser d ih =>
    obtain ⟨us, rfl, hdepth⟩ := ih h
    exact ⟨u :: us, rfl, (if_neg hopener).trans ((if_pos hcloser).trans hdepth)⟩
  | case5 depth u ts hopener hcloser ih =>
    obtain ⟨us, rfl, hdepth⟩ := ih h
    exact ⟨u :: us, rfl, (if_neg hopener).trans ((if_neg hcloser).trans hdepth)⟩

/-- Pieces of one group in brackets, read alike in front of anything. -/
structure IsGroup (ps : List Piece) : Prop where
  spells : ∀ before rest, Spells before rest ps
  tokens : ∀ place, ∃ t us close, tokensOf place ps = t :: us ∧ t.kind = .leftBracket ∧
    t.start = place ∧ close.stop = place.advance (textOf ps) ∧
    ∀ ts, groupEnd? 0 (us ++ ts) = some (close, ts)

theorem kinds_tokensOf (a b : Position) (ps : List Piece) :
    (tokensOf a ps).map Token.kind = (tokensOf b ps).map Token.kind := by
  have hsaid := congrArg (List.map Prod.fst) (said_tokensOf a b ps)
  rw [List.map_map, List.map_map] at hsaid
  exact hsaid

theorem groupEnd?_cons_closer {t : Token} (h : t.kind.isCloser = true) (ts : List Token) :
    groupEnd? 0 (t :: ts) = some (t, ts) := by
  simp [groupEnd?, isOpener_of_isCloser h, h]

/-- Kinds of lexemes that no dash starts and that decide how the next lexeme is read. -/
def readsAlone (k : TokenKind) : Bool :=
  k != .number && k != .parameter && k != .operator && k != .comment

/-- Pieces that no dash starts are read alike whatever stands in front of them. -/
theorem Spells.any_before {before : Option TokenKind} {c : Char} {w rest : Text} {l : Lexeme}
    {ps : List Piece} (h : Spells before rest (.lexeme c w l :: ps))
    (hkind : readsAlone l.kind = true) (other : Option TokenKind) :
    Spells other rest (.lexeme c w l :: ps) := by
  have hfits : (Piece.lexeme c w l).Fits (signMayFollow other) (textOf ps ++ rest) := by
    apply h.1.congr_sign
    intro v k heq
    cases heq
    have hread := Except.ok.inj h.1.2.1
    rw [← hread] at hkind
    rcases kind_dash _ _ with ⟨hdash, -⟩ | hdash | hdash <;> rw [hdash] at hkind <;> cases hkind
  have hafter : ∀ b, (Piece.lexeme c w l).after b = some l.kind := by
    intro b
    apply if_neg
    intro hcomment
    rw [hcomment] at hkind
    cases hkind
  refine ⟨hfits, h.2.congr_before ?_⟩
  rw [hafter, hafter]

theorem closesGroup_of_isCloser {d : Char} {k : TokenKind} (h : punctuation? d = some k)
    (hcloser : k.isCloser = true) : closesGroup d = true := by
  unfold punctuation? at h
  split at h <;> cases h <;> first | rfl | cases hcloser

/-- What stands behind a closing bracket has no part in how it and what is in front of it
    are read. -/
theorem Spells.behind_closer {before : Option TokenKind} {ps : List Piece} {d : Char} {k : Lexeme}
    {old : Text} (h : Spells before old (ps ++ [.lexeme d [] k]))
    (hcloser : k.kind.isCloser = true) (new : Text) :
    Spells before new (ps ++ [.lexeme d [] k]) := by
  obtain ⟨hps, ⟨hgap, hread, hlen⟩, -⟩ := spells_append.mp h
  have hmark := (closer_of_read hread hcloser).1
  have hcloses := closesGroup_of_isCloser hmark hcloser
  have hfits : (Piece.lexeme d [] k).Fits (signMayFollow (afterAll before ps)) (textOf [] ++ new) := by
    refine ⟨?_, ?_, hlen⟩
    · have hne : d ≠ '\x60' := by
        rintro rfl
        cases hcloses
      change gapLength (d :: _) = 0 at hgap
      change gapLength (d :: _) = 0
      rw [gapLength_of_ne hne] at hgap ⊢
      exact hgap
    · rw [read_of_punctuation hmark] at hread ⊢
      exact hread
  refine spells_append.mpr ⟨hps.change_rest (Ahead.closer new old hcloses) ?_ ?_, hfits, trivial⟩
  · intro hopens
    simp only [textOf_cons, Piece.text, List.cons_append, opensHereString, Bool.and_eq_true,
      Bool.or_eq_true, decide_eq_true_eq] at hopens
    rcases hopens.1 with rfl | rfl <;> cases hcloses
  · rintro p hp hopen ⟨r, hr⟩
    cases hr
    cases hcloses

section

variable {before : Option TokenKind} {place : Position}

/-- From a bracket to a closer with a balance between them there is a group. -/
theorem isGroup_bracketed {c d : Char} {w old : Text} {l k : Lexeme} {inner : List Piece}
    (h : Spells before old (.lexeme c w l :: (inner ++ [.lexeme d [] k])))
    (hkind : l.kind = .leftBracket) (hcloser : k.kind.isCloser = true)
    (hdepth : depthAfter 0 ((tokensOf place inner).map Token.kind) = some 0) :
    IsGroup (.lexeme c w l :: (inner ++ [.lexeme d [] k])) := by
  have hclose := (spells_append.mp h.2).2.1
  constructor
  · intro other rest
    have hrest : Spells before rest (.lexeme c w l :: (inner ++ [.lexeme d [] k])) :=
      @Spells.behind_closer _ (.lexeme c w l :: inner) _ _ _ h hcloser rest
    exact hrest.any_before (by rw [hkind]; rfl) other
  · intro start
    have hdepth' : depthAfter 0 ((tokensOf (start.advance (c :: w)) inner).map Token.kind) =
        some 0 := by
      rw [kinds_tokensOf _ place]
      exact hdepth
    refine ⟨l.token start c w, tokensOf (start.advance (c :: w)) (inner ++ [.lexeme d [] k]),
      k.token ((start.advance (c :: w)).advance (textOf inner)) d [], rfl, hkind, rfl, ?_, ?_⟩
    · rw [token_stop hclose.2.2, ← advance_append, ← advance_append]
      simp [Piece.text]
    · intro ts
      rw [tokensOf_append, List.append_assoc, groupEnd?_of_some _ hdepth']
      exact @groupEnd?_cons_closer
        (k.token ((start.advance (c :: w)).advance (textOf inner)) d []) hcloser ts

/-- The pieces of the tokens from a bracket to the end of its group are a group. -/
theorem exists_isGroup {ps : List Piece} {a ts mid : List Token} {t close : Token}
    (h : Spells before [] ps) (hsplit : tokensOf place ps = a ++ t :: ts)
    (hkind : t.kind = .leftBracket) (hend : groupEnd? 0 ts = some (close, mid)) :
    ∃ front qs back, ps = front ++ (qs ++ back) ∧ IsGroup qs ∧
      t.start = place.advance (textOf front) ∧
      close.stop = place.advance (textOf front ++ textOf qs) := by
  have hcloser := groupEnd?_isCloser hend
  obtain ⟨us, rfl, hdepth⟩ := groupEnd?_balanced hend
  obtain ⟨front, c, w, l, back, rfl, -, rfl, hback⟩ := exists_split hsplit
  obtain ⟨inner, d, v, k, behind, rfl, rfl, rfl, -⟩ := exists_split hback
  have hparts : Spells (afterAll before front) []
      ((.lexeme c w l :: (inner ++ [.lexeme d v k])) ++ behind) := by
    simpa using (spells_append.mp h).2
  obtain ⟨hgroup, -⟩ := spells_append.mp hparts
  have hclose := (spells_append.mp hgroup.2).2.1
  obtain rfl := List.eq_nil_of_length_eq_zero
    (hclose.2.2.trans (closer_of_read hclose.2.1 hcloser).2)
  refine ⟨front, .lexeme c w l :: (inner ++ [.lexeme d [] k]), behind, by simp, ?_, rfl, ?_⟩
  · exact isGroup_bracketed hgroup hkind hcloser hdepth
  · rw [token_stop hclose.2.2, ← advance_append, ← advance_append]
    simp [Piece.text]

end

/-! ### Attributes and members -/

/-- A text that is one group in brackets in front of a line end. -/
def IsAttribute (a : Text) : Prop := ∃ ps, textOf ps = a ∧ IsGroup ps

/-- The source between two tokens is what stands between their places. -/
theorem slice_mid {sc : Script} {t u : Token} {front mid back : Text}
    (hsource : sc.source = front ++ (mid ++ back))
    (hstart : t.start = Position.start.advance front)
    (hstop : u.stop = Position.start.advance (front ++ mid)) : sc.slice t u = mid := by
  have hoffset : ∀ s : Text, (Position.start.advance s).offset = s.length := by
    intro s
    rw [advance_start]
  rw [Script.slice, hsource, hstart, hstop, hoffset, hoffset, List.length_append, List.drop_left,
    Nat.add_sub_cancel_left, List.take_left]

namespace Grammar

variable {sc : Script} {ps : List Piece} {ts rest : List Token}

theorem Attributes.isAttribute (hspells : Spells none [] ps) (hsource : sc.source = textOf ps)
    {as : List Text} (h : Attributes sc ts as rest)
    (hts : ts <:+ tokensOf Position.start ps) : ∀ a ∈ as, IsAttribute a := by
  induction h with
  | nil =>
    intro a ha
    cases ha
  | @cons t close ts mid rest as hkind hend _ ih =>
    obtain ⟨before, hsplit⟩ := hts
    obtain ⟨front, qs, back, hpieces, hgroup, hstart, hstop⟩ :=
      exists_isGroup hspells hsplit.symm hkind hend
    have htext : sc.source = textOf front ++ (textOf qs ++ textOf back) := by
      rw [hsource, hpieces, textOf_append, textOf_append]
    have hslice := slice_mid htext hstart hstop
    have hinner : mid <:+ ts := (List.suffix_cons _ _).trans (groupEnd?_suffix hend)
    have hmid := (hinner.trans (List.suffix_cons t ts)).trans ⟨before, hsplit⟩
    have hlater := (afterAttribute_suffix mid).trans hmid
    rw [List.forall_mem_cons]
    exact ⟨⟨qs, hslice.symm, hgroup⟩, ih hlater⟩

theorem Name.isName {n : Text} (h : Name ts n rest)
    (hts : ∀ t ∈ ts, t.kind.isName = true → IsName t.text) : IsName n := by
  obtain ⟨hname⟩ := h
  exact hts _ List.mem_cons_self hname

theorem Underlying.isName {u : Option Text} (h : Underlying ts u rest)
    (hts : ∀ t ∈ ts, t.kind.isName = true → IsName t.text) : ∀ n ∈ u, IsName n := by
  rcases h with - | ⟨-, hname⟩
  · intro n hn
    cases hn
  · intro n hn
    cases hn
    exact hname.isName fun t ht => hts t (List.mem_cons_of_mem _ ht)

theorem Members.isName {ms : List EnumMember} {close : Token} (h : Members sc ts ms close rest)
    (hts : ∀ t ∈ ts, t.kind.isName = true → IsName t.text) : ∀ m ∈ ms, IsName m.name := by
  induction h with
  | nil =>
    intro m hm
    cases hm
  | group hgap _ hend _ ih =>
    have hmid := (List.suffix_cons _ _).trans (groupEnd?_suffix hend)
    have hinner := (List.suffix_cons _ _).trans (cons_suffix_of_dropWhile hgap)
    exact ih fun t ht => hts t ((hmid.trans hinner).subset ht)
  | cons hgap hname hvalue _ ih =>
    have hall := cons_suffix_of_dropWhile hgap
    have hmid := hvalue.suffix.trans ((List.suffix_cons _ _).trans hall)
    rw [List.forall_mem_cons]
    exact ⟨hts _ (hall.subset List.mem_cons_self) hname, ih fun t ht => hts t (hmid.subset ht)⟩

/-- A statement that is neither a requirement nor an import was read as a declaration. -/
theorem Statements.exists_declaration {sts : List Statement} {st : Statement}
    (h : Statements sc ts sts) (hst : st ∈ sts) (hrequirement : ∀ r, st.content ≠ .requirement r)
    (himporting : ∀ i, st.content ≠ .importing i) :
    ∃ t us last rest, t :: us <:+ ts ∧ st = stated sc st.content t last ∧
      Declaration sc (t :: us) st.content last rest := by
  induction h with
  | nil => cases hst
  | @separator t ts sts _ _ ih =>
    obtain ⟨u, us, last, rest, hus, hstated, hdeclaration⟩ := ih hst
    exact ⟨u, us, last, rest, hus.trans (List.suffix_cons t ts), hstated, hdeclaration⟩
  | @requirement t ts _ sts _ hparse _ ih =>
    rcases List.mem_cons.mp hst with rfl | hst
    · obtain ⟨-, req, -, -, rfl⟩ := requirement_iff.mp hparse
      exact absurd rfl (hrequirement req)
    · obtain ⟨u, us, last, rest, hus, hstated, hdeclaration⟩ := ih hst
      exact ⟨u, us, last, rest, hus.trans (List.suffix_cons t ts), hstated, hdeclaration⟩
  | @importing t last ts rest i sts _ himport _ ih =>
    rcases List.mem_cons.mp hst with rfl | hst
    · exact absurd rfl (himporting i)
    · obtain ⟨u, us, last', rest', hus, hstated, hdeclaration⟩ := ih hst
      have hextent := himport.extent.trans (List.suffix_cons t ts)
      have hrest := (List.suffix_cons last rest).trans hextent
      exact ⟨u, us, last', rest', hus.trans hrest, hstated, hdeclaration⟩
  | @declaration t last ts rest _ sts hdeclaration _ ih =>
    rcases List.mem_cons.mp hst with rfl | hst
    · exact ⟨t, ts, last, rest, List.suffix_refl _, rfl, hdeclaration⟩
    · obtain ⟨u, us, last', rest', hus, hstated, hdeclaration'⟩ := ih hst
      obtain ⟨tail, hextent, -⟩ := hdeclaration.extent
      have hrest := ((List.suffix_append tail rest).trans (List.suffix_cons last _)).trans hextent
      exact ⟨u, us, last', rest', hus.trans hrest, hstated, hdeclaration'⟩

end Grammar

/-! ### Enumerations -/

namespace EnumDef

/-- Whether an enumeration is a statement of some source. -/
def IsClassified (e : EnumDef) : Prop :=
  ∃ filename source sts st, Script.classify filename source = .ok sts ∧ st ∈ sts ∧
    st.content = .enumeration e

/-- Names and attributes as they come from a source. -/
structure WellFormed (e : EnumDef) : Prop where
  name : IsName e.name
  attributes : ∀ a ∈ e.attributes, IsAttribute a
  underlyingType : ∀ n ∈ e.underlyingType, IsName n
  members : ∀ m ∈ e.members, IsName m.name

theorem IsClassified.wellFormed {e : EnumDef} (h : e.IsClassified) : e.WellFormed := by
  obtain ⟨filename, source, sts, st, hclassify, hst, hcontent⟩ := h
  obtain ⟨s, hscan, hstatements⟩ := classify_iff.mp hclassify
  obtain ⟨ps, rfl, hspells, htokens⟩ := exists_pieces hscan
  obtain ⟨first, us, last, rest, hus, -, hdeclaration⟩ := hstatements.exists_declaration hst
    (by simp [hcontent]) (by simp [hcontent])
  rw [hcontent] at hdeclaration
  have hnames : ∀ t ∈ first :: us, t.kind.isName = true → IsName t.text := by
    intro t ht
    rw [htokens] at hus
    exact isName_of_mem hspells (hus.subset ht)
  cases hdeclaration with
  | enumeration hattributes _ hname hunder hblank _ hmembers =>
    have hhead := (List.suffix_cons _ _).trans hattributes.suffix
    have hsecond := hname.suffix.trans hhead
    have hthird := hunder.suffix.trans hsecond
    have hbrace := (List.suffix_cons _ _).trans (Grammar.cons_suffix_of_dropWhile hblank)
    have hinner := hbrace.trans hthird
    constructor
    · exact hname.isName fun t ht => hnames t (hhead.subset ht)
    · exact hattributes.isAttribute hspells rfl (htokens ▸ hus)
    · exact hunder.isName fun t ht => hnames t (hsecond.subset ht)
    · exact hmembers.isName fun t ht => hnames t (hinner.subset ht)

end EnumDef

end ScriptModule
