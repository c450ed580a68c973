/-
  ScriptModule/Proofs/EnumNormalForm.lean
  =======================================
  **The canonical text is a normal form.**  The canonical text of an enumeration that comes
  from a source is itself a source of that enumeration, with all values written out, and of
  nothing else; so equal texts mean equal names, attributes, underlying types and values.
-/
import ScriptModule.Proofs.CanonicalEnum
import ScriptModule.Proofs.EnumSource

namespace ScriptModule

open Lexeme Script Grammar

/-! ### Pieces of one lexeme -/

theorem Piece.text_whole {t : Text} (h : t ≠ []) (kind : TokenKind) :
    (Piece.whole kind t).text = t := by
  obtain ⟨c, w, rfl⟩ := List.exists_cons_of_ne_nil h
  rfl

/-- The token that is all of a text, at a place. -/
def Token.whole (kind : TokenKind) (t : Text) (place : Position) : Token :=
  ⟨kind, t, place, place.advance t, none⟩

theorem tokensOf_whole {kind : TokenKind} {t : Text} (h : t ≠ []) (hkind : kind ≠ .comment)
    (place : Position) (ps : List Piece) :
    tokensOf place (Piece.whole kind t :: ps) =
      Token.whole kind t place :: tokensOf (place.advance t) ps := by
  obtain ⟨c, w, rfl⟩ := List.exists_cons_of_ne_nil h
  have htext : Lexeme.text ⟨kind, w.length, none⟩ c w = c :: w := by
    rw [text_eq_shown rfl, shown, if_neg (by simp [hkind])]
  have htoken :
      Lexeme.token ⟨kind, w.length, none⟩ place c w = Token.whole kind (c :: w) place := by
    rw [token, htext, List.take_length, Token.whole]
  change Lexeme.token ⟨kind, w.length, none⟩ place c w :: tokensOf (place.advance (c :: w)) ps = _
  rw [htoken]

def spaces (n : Nat) : List Piece := List.replicate n (.gap ' ' [])

theorem textOf_spaces (n : Nat) : textOf (spaces n) = List.replicate n ' ' := by
  induction n with
  | zero => rfl
  | succ n ih => exact congrArg (' ' :: ·) ih

theorem tokensOf_spaces (n : Nat) (place : Position) (ps : List Piece) :
    tokensOf place (spaces n ++ ps) = tokensOf (place.advance (List.replicate n ' ')) ps := by
  induction n generalizing place with
  | zero => rfl
  | succ n ih => exact ih _

theorem spells_spaces {before : Option TokenKind} {n : Nat} {ps : List Piece} {rest : Text} :
    Spells before rest (spaces n ++ ps) ↔ Spells before rest ps := by
  induction n with
  | zero => rfl
  | succ n ih => exact ⟨fun h => ih.mp h.2, fun h => ⟨rfl, ih.mpr h⟩⟩

/-! ### Attributes -/

/-- Tokens that start with neither an attribute nor anything that is skipped behind one. -/
def StartsPlain (ts : List Token) : Prop :=
  skipBlank ts = ts ∧ nextIs .leftBracket ts = false

theorem skipBlank_cons {t : Token} (hnewline : t.kind ≠ .newline) (hcomment : t.kind ≠ .comment)
    (ts : List Token) : skipBlank (t :: ts) = t :: ts := by
  rw [skipBlank, List.dropWhile_cons_of_neg]
  simp [Token.isRemark, hnewline, hcomment]

/-- A group in brackets is read as an attribute in front of those behind it. -/
theorem IsGroup.attributes {qs : List Piece} (h : IsGroup qs) {sc : Script} {front back : Text}
    (hsource : sc.source = front ++ (textOf qs ++ back)) {ts rest : List Token} {as : List Text}
    (hbehind : Attributes sc (afterAttribute ts) as rest) :
    Attributes sc (tokensOf (Position.start.advance front) qs ++ ts) (textOf qs :: as) rest ∧
      skipBlank (tokensOf (Position.start.advance front) qs ++ ts) =
        tokensOf (Position.start.advance front) qs ++ ts := by
  obtain ⟨t, us, close, htokens, hkind, hstart, hstop, hend⟩ :=
    h.tokens (Position.start.advance front)
  rw [← advance_append] at hstop
  rw [htokens, List.cons_append]
  have hcons := Attributes.cons hkind (hend ts) hbehind
  rw [slice_mid hsource hstart hstop] at hcons
  constructor
  · exact hcons
  · exact skipBlank_cons (by simp [hkind]) (by simp [hkind]) _

/-- Attributes on lines of their own are read in front of a declaration. -/
theorem exists_attributePieces {as : List Text} (h : ∀ a ∈ as, IsAttribute a) :
    ∃ ps, textOf ps = EnumDef.lines as ∧ (∀ before rest, Spells before rest ps) ∧
      ∀ {sc : Script} {front back : Text} {ts : List Token},
        sc.source = front ++ (textOf ps ++ back) → StartsPlain ts →
        Attributes sc (tokensOf (Position.start.advance front) ps ++ ts) as ts ∧
        skipBlank (tokensOf (Position.start.advance front) ps ++ ts) =
          tokensOf (Position.start.advance front) ps ++ ts := by
  induction as with
  | nil => exact ⟨[], rfl, fun _ _ => trivial, fun _ hplain => ⟨.nil hplain.2, hplain.1⟩⟩
  | cons a as ih =>
    rw [List.forall_mem_cons] at h
    obtain ⟨⟨qs, rfl, hgroup⟩, has⟩ := h
    obtain ⟨ps, htext, hspells, hread⟩ := ih has
    refine ⟨qs ++ newlinePiece :: ps, ?_, ?_, ?_⟩
    · rw [textOf_append, textOf_cons, htext]
      simp [EnumDef.lines, newlinePiece, Piece.text]
    · intro before rest
      exact spells_append.mpr ⟨hgroup.spells before _, ⟨rfl, rfl, rfl⟩, hspells _ rest⟩
    · intro sc front back ts hsource hplain
      have hfront : sc.source = front ++ (textOf qs ++ ('\n' :: (textOf ps ++ back))) := by
        rw [hsource, textOf_append, List.append_assoc]
        rfl
      have hrest : sc.source = (front ++ textOf qs ++ ['\n']) ++ (textOf ps ++ back) := by
        rw [hfront]
        simp
      obtain ⟨hattributes, hblank⟩ := hread hrest hplain
      rw [advance_append, advance_append] at hattributes hblank
      rw [tokensOf_append, List.append_assoc]
      apply hgroup.attributes hfront
      -- the line end behind the group is skipped, and nothing else is
      change Attributes sc (skipBlank (tokensOf (((Position.start.advance front).advance
        (textOf qs)).advance ['\n']) ps ++ ts)) as ts
      rw [hblank]
      exact hattributes

/-! ### Members -/

def memberPieces (width : Nat) (m : Text × Int) : List Piece :=
  spaces 4 ++ Piece.whole (wordKind m.1) m.1 :: (spaces (width - m.1.length + 1) ++
    [Piece.whole .equals ['='], .gap ' ' [], Piece.whole .number (Text.ofInt m.2), newlinePiece])

theorem ofInt_ne_nil (v : Int) : Text.ofInt v ≠ [] := by
  cases v with
  | ofNat n => exact Nat.toDigits_ne_nil
  | negSucc n => exact List.cons_ne_nil _ _

section

variable {width : Nat} {m : Text × Int}

/-- What stands in front of the value of a member on its line. -/
def valueMargin (width : Nat) (name : Text) : Text :=
  List.replicate 4 ' ' ++ (name ++ (List.replicate (width - name.length + 1) ' ' ++ ['=', ' ']))

theorem memberText_eq (width : Nat) (m : Text × Int) :
    EnumDef.memberText width m = valueMargin width m.1 ++ Text.ofInt m.2 := by
  have hequals : " = ".toList = [' ', '=', ' '] := rfl
  have hfour : "    ".toList = List.replicate 4 ' ' := rfl
  have hpad : List.replicate (width - m.1.length + 1) ' ' =
      List.replicate (width - m.1.length) ' ' ++ [' '] := List.replicate_succ'
  unfold EnumDef.memberText
  rw [valueMargin, Text.padEnd, hequals, hfour, hpad]
  simp only [List.append_assoc, List.cons_append, List.nil_append]

theorem textOf_memberPieces (hname : IsName m.1) :
    textOf (memberPieces width m) = EnumDef.memberText width m ++ ['\n'] := by
  rw [memberText_eq, valueMargin]
  simp only [memberPieces, textOf_append, textOf_cons, textOf_spaces,
    Piece.text_whole hname.ne_nil, Piece.text_whole (ofInt_ne_nil m.2), List.append_assoc]
  rfl

theorem spells_memberPieces (hname : IsName m.1) (hvalue : m.2.natAbs < Nat.pow 10 maxDigits)
    (before : Option TokenKind) (rest : Text) : Spells before rest (memberPieces width m) := by
  obtain ⟨c, w, htext⟩ := List.exists_cons_of_ne_nil (ofInt_ne_nil m.2)
  have hnumber : (Piece.whole .number (Text.ofInt m.2)).Fits true ('\n' :: rest) := by
    rw [htext]
    exact fits_ofInt hvalue htext ⟨rest, rfl⟩
  have hequals : ∀ b, Spells b rest [Piece.whole .equals ['='], .gap ' ' [],
      Piece.whole .number (Text.ofInt m.2), newlinePiece] := by
    intro b
    exact ⟨⟨rfl, rfl, rfl⟩, rfl, hnumber, ⟨rfl, rfl, rfl⟩, trivial⟩
  rw [memberPieces, spells_spaces]
  exact ⟨hname.fits rfl, spells_spaces.mpr (hequals _)⟩

theorem tokensOf_memberPieces (hname : IsName m.1) (place : Position) :
    ∃ nm eq num nl, tokensOf place (memberPieces width m) = [nm, eq, num, nl] ∧
      nm.kind.isName = true ∧ nm.text = m.1 ∧ eq.kind = .equals ∧ num.kind = .number ∧
      num.start = place.advance (valueMargin width m.1) ∧
      num.stop = place.advance (EnumDef.memberText width m) ∧ nl.kind = .newline := by
  have hstart : ((((place.advance (List.replicate 4 ' ')).advance m.1).advance
      (List.replicate (width - m.1.length + 1) ' ')).advance ['=']).advance [' '] =
      place.advance (valueMargin width m.1) := by
    simp only [← advance_append, valueMargin, List.append_assoc, List.cons_append, List.nil_append]
  rw [memberPieces, tokensOf_spaces, tokensOf_whole hname.ne_nil (wordKind_ne_comment _),
    tokensOf_spaces, tokensOf_whole (List.cons_ne_nil _ _) (by decide), tokensOf,
    tokensOf_whole (ofInt_ne_nil m.2) (by decide), hstart]
  refine ⟨_, _, _, _, rfl, isName_wordKind _, rfl, rfl, rfl, rfl, ?_, rfl⟩
  rw [memberText_eq, advance_append]
  rfl

end

theorem value_number {sc : Script} {eq num nl : Token} (heq : eq.kind = .equals)
    (hnum : num.kind = .number) (hnl : nl.kind = .newline) (ts : List Token) :
    Value sc (eq :: num :: nl :: ts) (some (sc.slice num num)) (nl :: ts) := by
  have htake : (num :: nl :: ts).takeWhile isValuePart = [num] := by
    simp [isValuePart, isMemberGap, hnum, hnl]
  have hdrop : (num :: nl :: ts).dropWhile isValuePart = nl :: ts := by
    simp [isValuePart, isMemberGap, hnum, hnl]
  have hvalue := @Value.some sc eq num (num :: nl :: ts) [] heq htake
  rwa [hdrop] at hvalue

theorem dropWhile_isMemberGap {nl t : Token} (hnl : nl.kind = .newline)
    (ht : t.kind.isName = true ∨ t.kind = .rightBrace) (ts : List Token) :
    (nl :: t :: ts).dropWhile isMemberGap = t :: ts := by
  rw [List.dropWhile_cons_of_pos (by simp [isMemberGap, hnl]), List.dropWhile_cons_of_neg]
  intro hgap
  cases hkind : t.kind <;> simp_all [isMemberGap, TokenKind.isName]

def closeBrace : Piece := Piece.whole .rightBrace ['\x7d']

/-- Members on lines of their own are read with their values. -/
theorem members_memberPieces {sc : Script} {width : Nat} {vs : List (Text × Int)}
    (hnames : ∀ m ∈ vs, IsName m.1) {front back : Text}
    (hsource : sc.source = front ++ (textOf (vs.flatMap (memberPieces width)) ++ back))
    {nl : Token} (hnl : nl.kind = .newline) :
    ∃ close, Members sc (nl :: tokensOf (Position.start.advance front)
      (vs.flatMap (memberPieces width) ++ [closeBrace]))
      (vs.map EnumDef.explicitMember) close [] := by
  -- a line moves what is behind it along, so the text in front and the line end vary
  induction vs generalizing front nl with
  | nil => exact ⟨_, .nil (dropWhile_isMemberGap hnl (.inr rfl) []) rfl⟩
  | cons m vs ih =>
    rw [List.forall_mem_cons] at hnames
    obtain ⟨hm, hvs⟩ := hnames
    obtain ⟨nm, eq, num, nl', htokens, hname, htext, heq, hnum, hstart, hstop, hnl'⟩ :=
      @tokensOf_memberPieces width m hm (Position.start.advance front)
    rw [List.flatMap_cons, textOf_append, textOf_memberPieces hm] at hsource
    have hvalue : sc.source = (front ++ valueMargin width m.1) ++ (Text.ofInt m.2 ++
        ('\n' :: (textOf (vs.flatMap (memberPieces width)) ++ back))) := by
      rw [hsource, memberText_eq]
      simp
    have hrest : sc.source = (front ++ (EnumDef.memberText width m ++ ['\n'])) ++
        (textOf (vs.flatMap (memberPieces width)) ++ back) := by
      rw [hsource]
      simp
    rw [← advance_append] at hstart
    rw [memberText_eq, ← advance_append, ← List.append_assoc] at hstop
    obtain ⟨close, hmembers⟩ := ih hvs hrest hnl'
    rw [advance_append] at hmembers
    rw [List.flatMap_cons, List.append_assoc, tokensOf_append, htokens, textOf_memberPieces hm]
    have hcons := Members.cons (dropWhile_isMemberGap hnl (.inl hname) _) hname
      (value_number heq hnum hnl' _) hmembers
    rw [htext, slice_mid hvalue hstart hstop] at hcons
    exact ⟨close, hcons⟩

/-! ### The head -/

def underlyingPieces : Option Text → List Piece
  | none => []
  | some u => [.gap ' ' [], Piece.whole .colon [':'], .gap ' ' [], Piece.whole (wordKind u) u]

def headerPieces (e : EnumDef) : List Piece :=
  Piece.whole .enumWord "enum".toList :: .gap ' ' [] :: Piece.whole (wordKind e.name) e.name ::
    (underlyingPieces e.underlyingType ++
      [.gap ' ' [], Piece.whole .leftBrace ['\x7b'], newlinePiece])

section

variable {e : EnumDef}

theorem textOf_headerPieces (h : e.WellFormed) : textOf (headerPieces e) = e.header ++ ['\n'] := by
  have hname := Piece.text_whole h.name.ne_nil (wordKind e.name)
  unfold EnumDef.header
  cases hunder : e.underlyingType with
  | none =>
    simp only [headerPieces, hunder, underlyingPieces, textOf_cons, hname]
    simp [Piece.whole, Piece.text, newlinePiece]
  | some u =>
    have hu := (h.underlyingType u hunder).ne_nil
    obtain ⟨c, w, rfl⟩ := List.exists_cons_of_ne_nil hu
    simp only [headerPieces, hunder, underlyingPieces, textOf_cons, textOf_append, hname]
    simp [Piece.whole, Piece.text, newlinePiece]

theorem spells_headerPieces (h : e.WellFormed) (before : Option TokenKind) (rest : Text) :
    Spells before rest (headerPieces e) := by
  have hbrace : ∀ b,
      Spells b rest [.gap ' ' [], Piece.whole .leftBrace ['\x7b'], newlinePiece] := by
    intro b
    exact ⟨rfl, ⟨rfl, rfl, rfl⟩, ⟨rfl, rfl, rfl⟩, trivial⟩
  cases hunder : e.underlyingType with
  | none =>
    rw [headerPieces, hunder]
    exact ⟨⟨rfl, rfl, rfl⟩, rfl, h.name.fits rfl, hbrace _⟩
  | some u =>
    have hu := h.underlyingType u hunder
    rw [headerPieces, hunder]
    exact ⟨⟨rfl, rfl, rfl⟩, rfl, h.name.fits rfl, rfl, ⟨rfl, rfl, rfl⟩, rfl, hu.fits rfl, hbrace _⟩

theorem tokensOf_headerPieces (h : e.WellFormed) (place : Position) :
    ∃ kw nm us lb nl, tokensOf place (headerPieces e) = kw :: nm :: (us ++ [lb, nl]) ∧
      kw.kind = .enumWord ∧ nm.kind.isName = true ∧ nm.text = e.name ∧
      lb.kind = .leftBrace ∧ nl.kind = .newline ∧
      ∀ ts, nextIs .colon ts = false → Underlying (us ++ ts) e.underlyingType ts := by
  cases hunder : e.underlyingType with
  | none =>
    rw [headerPieces, hunder, tokensOf_whole (by decide) (by decide), tokensOf,
      tokensOf_whole h.name.ne_nil (wordKind_ne_comment _)]
    exact ⟨_, _, [], _, _, rfl, rfl, isName_wordKind _, rfl, rfl, rfl, fun ts hts => .none hts⟩
  | some u =>
    have hu := (h.underlyingType u hunder).ne_nil
    rw [headerPieces, hunder, underlyingPieces, tokensOf_whole (by decide) (by decide), tokensOf,
      tokensOf_whole h.name.ne_nil (wordKind_ne_comment _), List.cons_append, List.cons_append,
      List.cons_append, List.cons_append, List.nil_append, tokensOf,
      tokensOf_whole (List.cons_ne_nil _ _) (by decide), tokensOf,
      tokensOf_whole hu (wordKind_ne_comment _)]
    refine ⟨_, _, [_, _], _, _, rfl, rfl, isName_wordKind _, rfl, rfl, rfl, ?_⟩
    intro ts _
    exact .some rfl (@Name.intro (Token.whole _ u _) ts (isName_wordKind u))

end

/-! ### The whole text -/

section

variable {e : EnumDef} {width : Nat} {vs : List (Text × Int)}

theorem textOf_members (hnames : ∀ m ∈ vs, IsName m.1) :
    textOf (vs.flatMap (memberPieces width)) =
      EnumDef.lines (vs.map (EnumDef.memberText width)) := by
  induction vs with
  | nil => rfl
  | cons m vs ih =>
    rw [List.forall_mem_cons] at hnames
    rw [List.flatMap_cons, textOf_append, textOf_memberPieces hnames.1, ih hnames.2]
    rfl

theorem spells_members (hnames : ∀ m ∈ vs, IsName m.1) (hprintable : EnumDef.Printable vs)
    (before : Option TokenKind) (rest : Text) :
    Spells before rest (vs.flatMap (memberPieces width)) := by
  induction vs generalizing before with
  | nil => trivial
  | cons m vs ih =>
    rw [List.forall_mem_cons] at hnames
    obtain ⟨hm, hvs⟩ := List.forall_mem_cons.mp hprintable
    rw [List.flatMap_cons]
    exact spells_append.mpr ⟨spells_memberPieces hnames.1 hm _ _, ih hnames.2 hvs _⟩

/-- The tokens of the head and of the members, in front of which attributes may stand, are
    those of the enumeration with all values written out. -/
theorem declaration_canonical {sc : Script} {front : Text} (h : e.WellFormed)
    (hnames : ∀ m ∈ vs, IsName m.1)
    (hsource : sc.source = front ++ (textOf (headerPieces e) ++
      (textOf (vs.flatMap (memberPieces width)) ++ ['\x7d']))) {attributes : List Token}
    (hattributes : ∀ ts, StartsPlain ts → Attributes sc (attributes ++ ts) e.attributes ts) :
    ∃ close, Declaration sc (attributes ++ tokensOf (Position.start.advance front)
      (headerPieces e ++ (vs.flatMap (memberPieces width) ++ [closeBrace])))
      (.enumeration (e.explicit vs)) close [] := by
  obtain ⟨kw, nm, us, lb, nl, htokens, hkw, hnm, hname, hlb, hnl, hunder⟩ :=
    tokensOf_headerPieces h (Position.start.advance front)
  have hbehind : sc.source = (front ++ textOf (headerPieces e)) ++
      (textOf (vs.flatMap (memberPieces width)) ++ ['\x7d']) := by
    rw [hsource, List.append_assoc]
  obtain ⟨close, hmembers⟩ := members_memberPieces hnames hbehind hnl
  rw [tokensOf_append, htokens, ← advance_append]
  generalize tokensOf _ _ = inner at hmembers
  simp only [List.append_assoc, List.cons_append, List.nil_append]
  have hplain : ∀ ts, StartsPlain (kw :: ts) := by
    intro ts
    constructor
    · exact skipBlank_cons (by simp [hkw]) (by simp [hkw]) ts
    · simp [nextIs, hkw]
  have hread : ∀ ts, Name (nm :: ts) e.name ts := by
    intro ts
    rw [← hname]
    exact .intro hnm
  have hcolon : ∀ ts, nextIs .colon (lb :: ts) = false := by
    intro ts
    simp [nextIs, hlb]
  have hblank : skipBlank (lb :: nl :: inner) = lb :: nl :: inner :=
    skipBlank_cons (by simp [hlb]) (by simp [hlb]) _
  exact ⟨close, .enumeration (hattributes _ (hplain _)) hkw (hread _) (hunder _ (hcolon _))
    hblank hlb hmembers⟩

end

/-! ### The normal form -/

theorem Grammar.Declaration.statements {sc : Script} {ts : List Token} {content : Content}
    {last : Token} (h : Declaration sc ts content last []) :
    ∃ st, Statements sc ts [st] ∧ st.content = content := by
  obtain ⟨tail, hextent, -⟩ := h.extent
  cases ts with
  | nil => cases List.suffix_nil.mp hextent
  | cons t ts => exact ⟨stated sc content t last, .declaration h .nil, rfl⟩

namespace EnumDef

variable {e : EnumDef} {vs : List (Text × Int)} {text : Text}

theorem WellFormed.names_values (h : e.WellFormed) (hvalues : e.values = .ok vs) :
    ∀ m ∈ vs, IsName m.1 := by
  intro m hm
  have hname := List.mem_map_of_mem (f := Prod.fst) hm
  rw [valuesFrom_names hvalues] at hname
  obtain ⟨n, hn, heq⟩ := List.mem_map.mp hname
  rw [← heq]
  exact h.members n hn

/-- The canonical text is a source of the enumeration with all values written out, and of
    nothing else. -/
theorem WellFormed.classify_layout (h : e.WellFormed) (hnames : ∀ m ∈ vs, IsName m.1)
    (hprintable : Printable vs) (file : Option Text) :
    ∃ st, classify file (e.layout vs) = .ok [st] ∧ st.content = .enumeration (e.explicit vs) := by
  obtain ⟨ps, hps, hspells, hread⟩ := exists_attributePieces h.attributes
  let ms := vs.flatMap (memberPieces (nameWidth vs))
  have htext : textOf (ps ++ (headerPieces e ++ (ms ++ [closeBrace]))) = e.layout vs := by
    simp only [ms, textOf_append, hps, textOf_headerPieces h, textOf_members hnames, layout,
      List.append_assoc]
    rfl
  have hbrace : ∀ b, Spells b [] [closeBrace] := by
    intro b
    exact ⟨⟨rfl, rfl, rfl⟩, trivial⟩
  have hall : Spells none [] (ps ++ (headerPieces e ++ (ms ++ [closeBrace]))) :=
    spells_append.mpr ⟨hspells none _, spells_append.mpr ⟨spells_headerPieces h _ _,
      spells_append.mpr ⟨spells_members hnames hprintable _ _, hbrace _⟩⟩⟩
  have hscan := scanFrom_textOf hall Position.start
  rw [htext] at hscan
  let sc : Script := ⟨file, e.layout vs, tokensOf .start (ps ++ (headerPieces e ++ (ms ++
    [closeBrace]))), Position.start.advance (e.layout vs)⟩
  have hsource : sc.source = textOf ps ++ (textOf (headerPieces e) ++ (textOf ms ++ ['\x7d'])) := by
    change e.layout vs = _
    rw [← htext]
    simp only [textOf_append]
    rfl
  have hattributes : ∀ ts, StartsPlain ts →
      Attributes sc (tokensOf .start ps ++ ts) e.attributes ts := by
    intro ts hplain
    exact (@hread sc [] _ ts hsource hplain).1
  obtain ⟨close, hdeclaration⟩ := declaration_canonical h hnames hsource hattributes
  rw [← tokensOf_append] at hdeclaration
  obtain ⟨st, hstatements, hst⟩ := hdeclaration.statements
  exact ⟨st, classify_iff.mpr ⟨_, hscan, hstatements⟩, hst⟩

/-- The canonical text of an enumeration that comes from a source, read again. -/
theorem IsClassified.classify_canonicalText (he : e.IsClassified)
    (htext : e.canonicalText = .ok text) :
    ∃ vs, e.values = .ok vs ∧ Printable vs ∧ text = e.layout vs ∧ ∀ file, ∃ st,
      classify file text = .ok [st] ∧ st.content = .enumeration (e.explicit vs) := by
  obtain ⟨vs, hvalues, hprintable, rfl⟩ := canonicalText_iff.mp htext
  have hnames := he.wellFormed.names_values hvalues
  exact ⟨vs, hvalues, hprintable, rfl, he.wellFormed.classify_layout hnames hprintable⟩

/-- The canonical text of an enumeration that comes from a source is a source of one statement,
    that enumeration with the same values, and with the same canonical text; and two of these
    texts are equal when names, attributes, underlying types and values are, and only then. -/
theorem canonicalText_normal_form (he : e.IsClassified) (htext : e.canonicalText = .ok text) :
    (∀ file, ∃ st d, classify file text = .ok [st] ∧ st.content = .enumeration d ∧
      d.name = e.name ∧ d.attributes = e.attributes ∧ d.underlyingType = e.underlyingType ∧
      d.values = e.values ∧ d.canonicalText = .ok text) ∧
    ∀ (d : EnumDef) (text' : Text), d.IsClassified → d.canonicalText = .ok text' →
      (text' = text ↔ d.name = e.name ∧ d.attributes = e.attributes ∧
        d.underlyingType = e.underlyingType ∧ d.values = e.values) := by
  obtain ⟨vs, hvalues, hprintable, hlayout, hclassify⟩ := he.classify_canonicalText htext
  constructor
  · intro file
    obtain ⟨st, hst, hcontent⟩ := hclassify file
    exact ⟨st, e.explicit vs, hst, hcontent, rfl, rfl, rfl,
      (values_explicit hprintable).trans hvalues.symm, hlayout ▸ canonicalText_explicit hprintable⟩
  · intro d text' hd htext'
    obtain ⟨ws, hvalues', hprintable', -, hclassify'⟩ := hd.classify_canonicalText htext'
    constructor
    · rintro rfl
      obtain ⟨st, hst, hcontent⟩ := hclassify none
      obtain ⟨st', hst', hcontent'⟩ := hclassify' none
      obtain rfl : st' = st := List.head_eq_of_cons_eq (Except.ok.inj (hst'.symm.trans hst))
      have hsame : d.explicit ws = e.explicit vs :=
        Content.enumeration.inj (hcontent'.symm.trans hcontent)
      obtain ⟨hname, hattributes, hunder, rfl⟩ := explicit_inj hprintable' hprintable hsame
      exact ⟨hname, hattributes, hunder, hvalues'.trans hvalues.symm⟩
    · rintro ⟨hname, hattributes, hunder, hsame⟩
      have htexts := canonicalText_congr hname hattributes hunder hsame
      rw [htext, htext'] at htexts
      exact Except.ok.inj htexts

theorem isClassified_of_any {source : Text} (h : (classify none source).toOption.any (fun sts =>
    sts.any fun st => st.content = .enumeration e) = true) : e.IsClassified := by
  obtain ⟨sts, hclassify, hany⟩ := toOption_any.mp h
  obtain ⟨st, hst, hcontent⟩ := List.any_eq_true.mp hany
  exact ⟨none, source, sts, st, hclassify, hst, of_decide_eq_true hcontent⟩

/-- Two spellings with an attribute of two lines, a keyword as name, an underlying type with
    dot and hyphen, and values that are hexadecimal, left out, negative or in other digits. -/
theorem canonicalText_normal_form_spellings :
    ∃ (e d : EnumDef) (text : Text), text = "[F(
  'a')]
enum class : my.type-x \x7b
    A   = 16
    B   = 17
    in  = -3
    D-d = 3
\x7d".toList ∧ e ≠ d ∧ e.IsClassified ∧ e.canonicalText = .ok text ∧ d.IsClassified ∧
      d.canonicalText = .ok text ∧
      (∀ file, ∃ st c, classify file text = .ok [st] ∧ st.content = .enumeration c ∧
        c.name = e.name ∧ c.attributes = e.attributes ∧ c.underlyingType = e.underlyingType ∧
        c.values = e.values ∧ c.canonicalText = .ok text) ∧
      d.name = e.name ∧ d.attributes = e.attributes ∧ d.underlyingType = e.underlyingType ∧
      d.values = e.values := by
  let e : EnumDef := ⟨"class".toList, [⟨"A".toList, some "0x10".toList⟩, ⟨"B".toList, none⟩,
    ⟨"in".toList, some "-3".toList⟩, ⟨"D-d".toList, some "٣".toList⟩], ["[F(
  'a')]".toList], some "my.type-x".toList⟩
  let d : EnumDef := ⟨"class".toList, [⟨"A".toList, some "16".toList⟩,
    ⟨"B".toList, some "0b10001".toList⟩, ⟨"in".toList, some "-0_3".toList⟩,
    ⟨"D-d".toList, some "3".toList⟩], ["[F(
  'a')]".toList], some "my.type-x".toList⟩
  have he : e.IsClassified := by
    apply @isClassified_of_any _ "[F(
  'a')]
enum class : my.type-x \x7b A = 0x10; B # c
 in = -3; D-d = ٣ \x7d".toList
    decide +kernel
  have hd : d.IsClassified := by
    apply @isClassified_of_any _ "[F(
  'a')] enum class : my.type-x \x7b
 A = 16; B = 0b10001
 in = -0_3
 [g()]
 D-d = 3 \x7d".toList
    decide +kernel
  have hprint : (e.canonicalText.toOption.any fun t => t = "[F(
  'a')]
enum class : my.type-x \x7b
    A   = 16
    B   = 17
    in  = -3
    D-d = 3
\x7d".toList && d.canonicalText.toOption.any (· = t)) = true := by
    decide +kernel
  obtain ⟨text, he', htext⟩ := toOption_any.mp hprint
  obtain ⟨htext, hprint'⟩ := (Bool.and_eq_true _ _).mp htext
  obtain ⟨text', hd', htext'⟩ := toOption_any.mp hprint'
  obtain rfl := of_decide_eq_true htext
  obtain rfl := of_decide_eq_true htext'
  obtain ⟨hread, hsame⟩ := canonicalText_normal_form he he'
  exact ⟨e, d, _, rfl, by decide +kernel, he, he', hd, hd', hread, (hsame d _ hd hd').mp rfl⟩

end EnumDef

end ScriptModule
