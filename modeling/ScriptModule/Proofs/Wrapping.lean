/-
  ScriptModule/Proofs/Wrapping.lean
  =================================
  **The function around an entry point.**  The rendered text is one function exactly if
  the body between its braces can be scanned by itself and its brackets balance.  Nothing
  checks this when an entry point is extracted.
-/
import ScriptModule.Proofs.EntryBody
import ScriptModule.Proofs.ParserSteps
import ScriptModule.Proofs.TextLaws
import ScriptModule.Script.Classify

namespace ScriptModule

open Lexeme Unicode

/-! ### Balanced brackets -/

/-- The number of groups open behind tokens of these kinds; nothing if a closer stands
    outside all groups.  Brackets of all shapes count alike. -/
def depthAfter (depth : Nat) : List TokenKind → Option Nat
  | [] => some depth
  | k :: ks =>
    if k.isOpener then depthAfter (depth + 1) ks
    else if k.isCloser then
      match depth with
      | 0 => none
      | d + 1 => depthAfter d ks
    else depthAfter depth ks

/-- Whether every closer ends a group, and every group is closed. -/
def Balanced (ts : List Token) : Prop := depthAfter 0 (ts.map Token.kind) = some 0

instance (ts : List Token) : Decidable (Balanced ts) := inferInstanceAs (Decidable (_ = _))

theorem depthAfter_append (depth : Nat) (a b : List TokenKind) :
    depthAfter depth (a ++ b) = (depthAfter depth a).bind (depthAfter · b) := by
  induction a generalizing depth with
  | nil => rfl
  | cons k a ih =>
    simp only [List.cons_append, depthAfter]
    split
    · exact ih _
    · split
      · cases depth with
        | zero => rfl
        | succ d => exact ih d
      · exact ih _

theorem groupEnd?_of_some {depth d : Nat} {ts : List Token} (us : List Token)
    (h : depthAfter depth (ts.map Token.kind) = some d) :
    groupEnd? depth (ts ++ us) = groupEnd? d us := by
  induction ts generalizing depth with
  | nil =>
    cases h
    rfl
  | cons t ts ih =>
    simp only [List.map_cons, depthAfter] at h
    simp only [List.cons_append, groupEnd?]
    split at h
    · next hopener =>
      rw [if_pos hopener]
      exact ih h
    · next hopener =>
      rw [if_neg hopener]
      split at h
      · next hcloser =>
        rw [if_pos hcloser]
        cases depth with
        | zero => cases h
        | succ n => exact ih h
      · next hcloser =>
        rw [if_neg hcloser]
        exact ih h

theorem groupEnd?_of_none {depth : Nat} {ts : List Token} (us : List Token)
    (h : depthAfter depth (ts.map Token.kind) = none) :
    ∃ t rest, groupEnd? depth (ts ++ us) = some (t, rest ++ us) := by
  induction ts generalizing depth with
  | nil => cases h
  | cons t ts ih =>
    simp only [List.map_cons, depthAfter] at h
    simp only [List.cons_append, groupEnd?]
    split at h
    · next hopener =>
      rw [if_pos hopener]
      exact ih h
    · next hopener =>
      rw [if_neg hopener]
      split at h
      · next hcloser =>
        rw [if_pos hcloser]
        cases depth with
        | zero => exact ⟨t, ts, rfl⟩
        | succ n => exact ih h
      · next hcloser =>
        rw [if_neg hcloser]
        exact ih h

theorem isOpener_of_isCloser {k : TokenKind} (h : k.isCloser = true) : k.isOpener = false := by
  cases k <;> first | rfl | cases h

theorem groupEnd?_isCloser {depth : Nat} {ts rest : List Token} {t : Token}
    (h : groupEnd? depth ts = some (t, rest)) : t.kind.isCloser = true := by
  induction ts generalizing depth with
  | nil => cases h
  | cons u ts ih =>
    simp only [groupEnd?] at h
    split at h
    · exact ih h
    · split at h
      · next hcloser =>
        cases depth with
        | zero =>
          cases h
          exact hcloser
        | succ d => exact ih h
      · exact ih h

theorem groupEnd?_newline {t : Token} (h : t.kind = .newline) (ts : List Token) :
    groupEnd? 0 (t :: ts) = groupEnd? 0 ts := by
  simp only [groupEnd?, h]
  rfl

/-- A closer behind tokens ends the group that they are in, exactly if they balance. -/
theorem groupEnd?_closer {ts : List Token} {t : Token} (hcloser : t.kind.isCloser = true) :
    groupEnd? 0 (ts ++ [t]) = some (t, []) ↔ Balanced ts := by
  have hlast : ∀ d, groupEnd? d [t] = some (t, []) ↔ d = 0 := by
    intro d
    cases d <;> simp [groupEnd?, isOpener_of_isCloser hcloser, hcloser]
  rcases hdepth : depthAfter 0 (ts.map Token.kind) with _ | d
  · obtain ⟨u, rest, hend⟩ := groupEnd?_of_none [t] hdepth
    rw [hend, Balanced, hdepth]
    simp
  · rw [groupEnd?_of_some [t] hdepth, hlast, Balanced, hdepth, Option.some.injEq]

/-! ### A word in front of a blank -/

theorem Piece.Fits.word {sign : Bool} {c : Char} {w old new : Text} {l : Lexeme}
    (h : (Piece.lexeme c w l).Fits sign old) (hname : l.kind.isName = true)
    (hnew : Stops isWordChar new) (other : Bool) : (Piece.lexeme c w l).Fits other new := by
  obtain ⟨hgap, hread, hlen⟩ := h
  obtain ⟨hstarts, rfl⟩ := word_of_read hread hname
  have hbacktick : c ≠ '\x60' := by
    rintro rfl
    exact absurd hstarts (by decide)
  refine ⟨?_, ?_, hlen⟩
  · rw [List.cons_append, gapLength_of_ne hbacktick] at hgap ⊢
    exact hgap
  · rw [read_of_startsWord hstarts]
    unfold plain at hname hlen ⊢
    by_cases hdigit : isDigit c = true
    · rw [if_pos hdigit] at hname
      cases hname
    · rw [if_neg hdigit, if_pos hstarts] at hlen
      have hrun := runLength_append_eq.mpr ⟨(runLength_append_eq.mp hlen.symm).1, hnew⟩
      rw [if_neg hdigit, if_pos hstarts, if_neg hdigit, if_pos hstarts, hrun,
        takeWhile_of_runLength hrun, takeWhile_of_runLength hlen.symm]
      simp only at hlen
      rw [← hlen]

/-- Gaps are skipped alike in front of anything but a line feed. -/
theorem spells_gaps {place : Position} {before other : Option TokenKind} {ps : List Piece}
    {old new : Text} (h : Spells before old ps) (hgaps : tokensOf place ps = [])
    (hnew : ¬ StartsLine new) : Spells other new ps := by
  induction ps generalizing place before with
  | nil => trivial
  | cons p ps ih =>
    obtain ⟨hp, hps⟩ := h
    cases p with
    | gap c w =>
      refine ⟨hp.gap (fun ho => ?_) _, ih hps hgaps⟩
      cases ps with
      | nil => exact hnew
      | cons q qs =>
        have hold := hp.not_startsLine ho
        rw [textOf_cons, List.append_assoc] at hold ⊢
        exact mt (startsLine_text_append q _ _).mp hold
    | lexeme c w l => cases hgaps

theorem isWordChar_of_isGap {c : Char} (h : isGap c = true) : isWordChar c = false := by
  simp only [isGap, Bool.or_eq_true, decide_eq_true_eq] at h
  rcases h with (((((rfl | rfl) | rfl) | rfl) | rfl) | rfl) | rfl <;> decide +kernel

theorem stops_gaps {place : Position} {before : Option TokenKind} {ps : List Piece} {old : Text}
    (h : Spells before old ps) (hgaps : tokensOf place ps = []) (x : Text) :
    Stops isWordChar (textOf ps ++ ' ' :: x) := by
  have hspace : isWordChar ' ' = false := by decide
  cases ps with
  | nil => exact hspace
  | cons p ps =>
    cases p with
    | gap c w =>
      rcases gap_cases h.1 with ⟨-, hblank, -⟩ | ⟨rfl, -⟩
      · exact isWordChar_of_isGap hblank
      · exact show isWordChar '\x60' = false by decide
    | lexeme c w l => cases hgaps

theorem spells_name {place : Position} {before : Option TokenKind} {ps : List Piece} {t : Token}
    (h : Spells before [] ps) (ht : tokensOf place ps = [t]) (hname : t.kind.isName = true)
    (other : Option TokenKind) (x : Text) : Spells other (' ' :: x) ps := by
  have hfirst : (tokensOf place ps)[0]? = some t := by rw [ht, List.getElem?_cons_zero]
  obtain ⟨a, c, w, l, b, rfl, ha, rfl⟩ := exists_lexeme hfirst
  have hb : tokensOf ((place.advance (textOf a)).advance (c :: w)) b = [] := by
    rw [tokensOf_append, ← ha] at ht
    exact (List.cons.inj ht).2
  obtain ⟨hspells, hword, hrest⟩ := spells_append.mp h
  refine spells_append.mpr ⟨spells_gaps hspells ha.symm ?_, ?_, spells_gaps hrest hb ?_⟩
  · rintro ⟨r, hr⟩
    obtain rfl := (List.cons.inj hr).1
    exact absurd (word_of_read hword.2.1 hname).1 (by decide)
  · exact hword.word hname (stops_gaps hrest hb x) _
  · rintro ⟨r, hr⟩
    exact absurd (List.cons.inj hr).1 (by decide)

/-! ### A line end behind a body -/

/-- Pieces and the pieces of the line that they make up: the line feed is a token by
    itself, or it goes with a backtick in front of it. -/
inductive EndsLine : List Piece → List Piece → Prop
  | newline (ps : List Piece) : (∀ p ∈ ps.getLast?, ¬ p.Open) →
      EndsLine ps (ps ++ [.lexeme '\n' [] ⟨.newline, 0, none⟩])
  | backtick (ps : List Piece) :
      EndsLine (ps ++ [.lexeme '\x60' [] ⟨.operator, 0, none⟩]) (ps ++ [.gap '\x60' ['\n']])

namespace EndsLine

variable {ps qs : List Piece}

theorem textOf_eq (h : EndsLine ps qs) : textOf qs = textOf ps ++ ['\n'] := by
  cases h with
  | newline ps hopen => simp [Piece.text]
  | backtick ps => simp [Piece.text]

theorem spells_iff (h : EndsLine ps qs) (before : Option TokenKind) (rest : Text) :
    Spells before [] ps ↔ Spells before rest qs := by
  have hquote : ∀ t, opensHereString ('\n' :: t) = true → opensHereString [] = true := by
    intro t ht
    simp [opensHereString] at ht
  cases h with
  | newline ps hopen =>
    have hnewline : ∀ b, Spells b rest [.lexeme '\n' [] ⟨.newline, 0, none⟩] := by
      intro b
      exact ⟨⟨rfl, rfl, rfl⟩, trivial⟩
    constructor
    · intro hps
      refine spells_append.mpr ⟨hps.change_rest (Ahead.newline _ _) (hquote _) ?_, hnewline _⟩
      intro p hp ho
      exact absurd ho (hopen p hp)
    · intro hqs
      refine (spells_append.mp hqs).1.change_rest (Ahead.nil _) (fun ho => by cases ho) ?_
      rintro p hp ho ⟨r, hr⟩
      cases hr
  | backtick ps =>
    constructor
    · intro hps
      refine spells_append.mpr ⟨(spells_append.mp hps).1.change_rest ?_ ?_ ?_, rfl, trivial⟩
      · exact (Ahead.newline _ _).append ['\x60']
      · intro ho
        simp [opensHereString, Piece.text] at ho
      · rintro p hp ho ⟨r, hr⟩
        cases hr
    · intro hqs
      have hbacktick : ∀ b, Spells b [] [.lexeme '\x60' [] ⟨.operator, 0, none⟩] := by
        intro b
        exact ⟨⟨rfl, rfl, rfl⟩, trivial⟩
      refine spells_append.mpr ⟨(spells_append.mp hqs).1.change_rest ?_ ?_ ?_, hbacktick _⟩
      · exact (Ahead.nil _).append ['\x60']
      · intro ho
        simp [opensHereString, Piece.text] at ho
      · rintro p hp ho ⟨r, hr⟩
        cases hr

theorem balanced_iff (h : EndsLine ps qs) (x y : Position) :
    Balanced (tokensOf y qs) ↔ Balanced (tokensOf x ps) := by
  have hkinds : ∀ a b (rs : List Piece),
      (tokensOf a rs).map Token.kind = (tokensOf b rs).map Token.kind := by
    intro a b rs
    have hsaid := congrArg (List.map Prod.fst) (said_tokensOf a b rs)
    rw [List.map_map, List.map_map] at hsaid
    exact hsaid
  have hidle : ∀ (o : Option Nat) (k : TokenKind), k.isOpener = false → k.isCloser = false →
      o.bind (depthAfter · [k]) = o := by
    intro o k hopener hcloser
    cases o <;> simp [depthAfter, hopener, hcloser]
  rw [Balanced, Balanced, hkinds y x]
  cases h with
  | newline ps hopen =>
    rw [tokensOf_append, List.map_append, depthAfter_append]
    rw [show (tokensOf _ [.lexeme '\n' [] ⟨.newline, 0, none⟩]).map Token.kind = [.newline] from rfl,
      hidle _ _ rfl rfl]
  | backtick ps =>
    rw [tokensOf_append, tokensOf_append, List.map_append, List.map_append, depthAfter_append,
      depthAfter_append]
    rw [show (tokensOf _ [.lexeme '\x60' [] ⟨.operator, 0, none⟩]).map Token.kind = [.operator]
      from rfl, hidle _ _ rfl rfl]
    simp [tokensOf, depthAfter]

end EndsLine

theorem exists_endsLine_of_spells {before : Option TokenKind} {ps : List Piece}
    (h : Spells before [] ps) (hlast : (textOf ps).getLast? ≠ some '\r') :
    ∃ qs, EndsLine ps qs := by
  by_cases hopen : ∃ p ∈ ps.getLast?, p.Open
  · obtain ⟨p, hp, ho⟩ := hopen
    obtain ⟨front, rfl⟩ := List.getLast?_eq_some_iff.mp hp
    have hfits := (spells_append.mp h).2.1
    rcases ho with ho | ho
    · cases p with
      | gap c w =>
        obtain ⟨rfl, rfl⟩ := List.cons.inj ho
        cases hfits
      | lexeme c w l =>
        obtain ⟨rfl, rfl⟩ := List.cons.inj ho
        have hread := hfits.2.1
        cases hread
        exact ⟨_, .backtick front⟩
    · rw [textOf_append, textOf_cons, ho] at hlast
      simp at hlast
  · exact ⟨_, .newline ps fun p hp ho => hopen ⟨p, hp, ho⟩⟩

theorem exists_endsLine_of_textOf {before : Option TokenKind} {qs : List Piece}
    {body rest : Text} (h : Spells before rest qs) (htext : textOf qs = body ++ ['\n'])
    (hlast : body.getLast? ≠ some '\r') : ∃ ps, EndsLine ps qs ∧ textOf ps = body := by
  have hne : qs ≠ [] := by
    rintro rfl
    simp at htext
  obtain ⟨ps, q, rfl⟩ : ∃ ps q, qs = ps ++ [q] :=
    ⟨qs.dropLast, qs.getLast hne, (List.dropLast_concat_getLast hne).symm⟩
  obtain ⟨hps, hq, -⟩ := spells_append.mp h
  rw [textOf_append, textOf_cons, textOf_nil, List.append_nil] at htext
  -- the last character of the last piece is the line feed
  have hcut : ∀ {u : Text} {d : Char}, q.text = u ++ [d] → textOf ps ++ u = body ∧ d = '\n' := by
    intro u d hu
    rw [hu, ← List.append_assoc] at htext
    obtain ⟨hbody, hd⟩ := List.append_inj' htext rfl
    exact ⟨hbody, (List.cons.inj hd).1⟩
  cases q with
  | gap c w =>
    rcases gap_cases hq with ⟨-, hblank, rfl⟩ | ⟨rfl, rfl | rfl | ⟨rfl, -⟩⟩
    · obtain ⟨-, rfl⟩ := hcut (u := []) rfl
      exact absurd hblank (by decide)
    · obtain ⟨rfl, -⟩ := hcut (u := ['\x60', '\r']) rfl
      simp at hlast
    · obtain ⟨rfl, -⟩ := hcut (u := ['\x60']) rfl
      exact ⟨_, .backtick ps, by rw [textOf_append]; rfl⟩
    · obtain ⟨-, hd⟩ := hcut (u := ['\x60']) rfl
      exact absurd hd (by decide)
  | lexeme c w l =>
    by_cases hc : c = '\n'
    · subst hc
      obtain ⟨rfl, rfl⟩ := hq.line_feed
      obtain ⟨rfl, -⟩ := hcut (u := []) rfl
      refine ⟨ps, .newline ps fun p hp ho => ?_, (List.append_nil _).symm⟩
      obtain ⟨front, rfl⟩ := List.getLast?_eq_some_iff.mp hp
      exact (spells_append.mp hps).2.1.not_startsLine ho ⟨rest, rfl⟩
    · obtain ⟨-, hread, hlen⟩ := hq
      have hend := getLast?_read_ne hread hc
      rw [← hlen, List.take_left] at hend
      have hline : (c :: w).getLast? = some '\n' := by
        have hall := congrArg List.getLast? htext
        rw [List.getLast?_append, List.getLast?_append] at hall
        simpa [Piece.text] using hall
      exact absurd hline hend

/-! ### The rendered text -/

def headPieces (name : List Piece) : List Piece :=
  [.lexeme 'f' "unction".toList ⟨.functionWord, 7, none⟩, .gap ' ' []] ++ name ++
    [.gap ' ' [], .lexeme '\x7b' [] ⟨.leftBrace, 0, none⟩,
      .lexeme '\n' [] ⟨.newline, 0, none⟩]

theorem textOf_headPieces (name : List Piece) :
    textOf (headPieces name) = "function ".toList ++ textOf name ++ " \x7b\n".toList := by
  simp only [headPieces, textOf_append]
  rfl

theorem afterAll_headPieces (before : Option TokenKind) (name : List Piece) :
    afterAll before (headPieces name) = some .newline := by
  simp only [headPieces, afterAll, List.foldl_append]
  rfl

theorem spells_headPieces {place : Position} {before : Option TokenKind} {name : List Piece}
    {t : Token} (h : Spells before [] name) (ht : tokensOf place name = [t])
    (hword : t.kind.isName = true) (rest : Text) : Spells none rest (headPieces name) := by
  have hbrace : ∀ b, Spells b rest [.gap ' ' [], .lexeme '\x7b' [] ⟨.leftBrace, 0, none⟩,
      .lexeme '\n' [] ⟨.newline, 0, none⟩] := by
    intro b
    exact ⟨rfl, ⟨rfl, rfl, rfl⟩, ⟨rfl, rfl, rfl⟩, trivial⟩
  have hkeyword : ∀ r, Spells none r [.lexeme 'f' "unction".toList ⟨.functionWord, 7, none⟩,
      .gap ' ' []] := by
    intro r
    exact ⟨⟨rfl, rfl, rfl⟩, rfl, trivial⟩
  refine spells_append.mpr ⟨spells_append.mpr ⟨hkeyword _, ?_⟩, hbrace _⟩
  exact spells_name h ht hword _ _

theorem tokensOf_headPieces {place : Position} {name : List Piece} {t : Token}
    (ht : tokensOf place name = [t]) :
    ∃ fn nm lb nl, tokensOf Position.start (headPieces name) = [fn, nm, lb, nl] ∧
      fn.kind = .functionWord ∧ fn.start.offset = 0 ∧ nm.said = t.said ∧
      lb.kind = .leftBrace ∧ nl.kind = .newline := by
  have hname : ∀ p, ∃ nm, tokensOf p name = [nm] ∧ nm.said = t.said := by
    intro p
    have hsaid := said_tokensOf p place name
    rw [ht, List.map_singleton] at hsaid
    exact List.map_eq_singleton_iff.mp hsaid
  rw [headPieces, tokensOf_append, tokensOf_append]
  obtain ⟨nm, hnm, hsame⟩ := hname _
  rw [hnm]
  exact ⟨_, nm, _, _, rfl, rfl, rfl, hsame, rfl, rfl⟩

namespace Script

theorem functionDef_eq {sc : Script} {fn nm lb : Token} {ts : List Token}
    (hname : nm.kind.isName = true) (hbrace : lb.kind = .leftBrace) :
    sc.functionDef fn (nm :: lb :: ts) =
      match groupEnd? 0 ts with
      | none => .error (sc.reportToken (.unterminatedGroup lb.text) lb)
      | some (close, rest) => .ok (sc.parsed (.function nm.text) fn close rest) := by
  have hfunction : sc.functionName (nm :: lb :: ts) = .ok (nm.text, lb :: ts) := by
    simp [functionName, name, hname, hbrace]
  have hparameters : sc.skipParameters (lb :: ts) = .ok (lb :: ts) := by
    simp [skipParameters, hbrace]
  have hblank : skipBlank (lb :: ts) = lb :: ts := by
    simp [skipBlank, Token.isRemark, hbrace]
  simp only [functionDef, hfunction, hparameters, body, hblank, hbrace, if_true, group]
  cases groupEnd? 0 ts <;> rfl

theorem statementsFrom_function {sc : Script} {fn nm lb : Token} {ts : List Token}
    (hkeyword : fn.kind = .functionWord) (hname : nm.kind.isName = true)
    (hbrace : lb.kind = .leftBrace) :
    sc.statementsFrom (fn :: nm :: lb :: ts) =
      match groupEnd? 0 ts with
      | none => .error (sc.reportToken (.unterminatedGroup lb.text) lb)
      | some (close, rest) =>
        (sc.statementsFrom rest).map ((sc.parsed (.function nm.text) fn close rest).value :: ·) := by
  have hdeclaration : sc.declaration fn (nm :: lb :: ts) = sc.functionDef fn (nm :: lb :: ts) := by
    simp [declaration, attributes, hkeyword]
  rw [statementsFrom_cons, if_neg (by simp [Grammar.isSeparator, hkeyword, Token.isRemark]),
    if_neg (by simp [hkeyword]), if_neg (by simp [hkeyword]), hdeclaration,
    functionDef_eq hname hbrace]
  cases groupEnd? 0 ts <;> rfl

/-! ### The function and nothing else -/

theorem render_eq {e : EntryPoint} {name : List Piece} (hname : textOf name = e.name) :
    e.render = textOf (headPieces name) ++ (e.body ++ ['\n'] ++ ['\x7d']) := by
  have hclose : "\n\x7d".toList = ['\n'] ++ ['\x7d'] := by decide
  delta EntryPoint.render
  rw [textOf_headPieces, hname, hclose]
  simp only [List.append_assoc]

theorem classify_eq (file : Option Text) {source : Text} {s : Scan} (h : scan source = .ok s) :
    classify file source = (Script.mk file source s.tokens s.stop).statements := by
  simp [classify, ofSource, scanFile, h, Except.mapError, Except.map]

section

variable {e : EntryPoint} {s : Scan} {t : Token}

/-- Around a body that is scanned, the rendered text is the head of a function, tokens
    that balance if those of the body do, and a closing brace. -/
theorem scan_render (hname : scan e.name = .ok s) (hone : s.tokens = [t])
    (hword : t.kind.isName = true) (hlast : e.body.getLast? ≠ some '\r') {b : Scan}
    (hbody : scan e.body = .ok b) :
    ∃ fn nm lb nl mid close stop,
      scan e.render = .ok ⟨fn :: nm :: lb :: nl :: (mid ++ [close]), stop⟩ ∧
      fn.kind = .functionWord ∧ fn.start.offset = 0 ∧ nm.said = t.said ∧
      lb.kind = .leftBrace ∧ nl.kind = .newline ∧ close.kind = .rightBrace ∧
      close.stop.offset = e.render.length ∧ (Balanced mid ↔ Balanced b.tokens) := by
  obtain ⟨name, hnametext, hnamespells, hnametokens⟩ := exists_pieces hname
  rw [hone] at hnametokens
  obtain ⟨ps, hbodytext, hbodyspells, hbodytokens⟩ := exists_pieces hbody
  rw [← hbodytext] at hlast
  obtain ⟨qs, hends⟩ := exists_endsLine_of_spells hbodyspells hlast
  -- the pieces of the whole text
  let close : Piece := .lexeme '\x7d' [] ⟨.rightBrace, 0, none⟩
  have hclose : ∀ k, Spells k [] [close] := by
    intro k
    exact ⟨⟨rfl, rfl, rfl⟩, trivial⟩
  have hrest : Spells (some .newline) [] (qs ++ [close]) := by
    refine spells_append.mpr ⟨?_, hclose _⟩
    exact (hends.spells_iff _ _).mp (hbodyspells.congr_before rfl)
  have hall : Spells none [] (headPieces name ++ (qs ++ [close])) := by
    refine spells_append.mpr ⟨spells_headPieces hnamespells hnametokens.symm hword _, ?_⟩
    rw [afterAll_headPieces]
    exact hrest
  have htext : textOf (headPieces name ++ (qs ++ [close])) = e.render := by
    rw [render_eq hnametext, textOf_append, textOf_append, hends.textOf_eq, hbodytext]
    rfl
  obtain ⟨fn, nm, lb, nl, hhead, hfn, hstart, hsaid, hlb, hnl⟩ :=
    tokensOf_headPieces hnametokens.symm
  have hscan := scanFrom_textOf hall Position.start
  rw [htext, tokensOf_append, tokensOf_append, hhead] at hscan
  refine ⟨fn, nm, lb, nl, _, _, _, hscan, hfn, hstart, hsaid, hlb, hnl, rfl, ?_, ?_⟩
  · rw [token_stop rfl, advance_offset, advance_offset, advance_offset, ← htext, textOf_append,
      textOf_append, List.length_append, List.length_append, ← Nat.add_assoc]
    exact congrArg (· + _ + _) (Nat.zero_add _)
  · rw [hbodytokens]
    exact hends.balanced_iff _ _

theorem classify_of_balanced (file : Option Text) (hname : scan e.name = .ok s)
    (hone : s.tokens = [t]) (hword : t.kind.isName = true) (hlast : e.body.getLast? ≠ some '\r')
    {b : Scan} (hbody : scan e.body = .ok b) (hbalanced : Balanced b.tokens) :
    ∃ st, classify file e.render = .ok [st] ∧ st.content = .function t.text ∧
      st.text = e.render := by
  obtain ⟨fn, nm, lb, nl, mid, close, stop, hscan, hfn, hstart, hsaid, hlb, hnl, hclose, hstop,
    hmid⟩ := scan_render hname hone hword hlast hbody
  obtain ⟨hkind, htext, -⟩ : nm.kind = t.kind ∧ nm.text = t.text ∧ nm.value = t.value := by
    simpa [Token.said] using hsaid
  have hcloser : close.kind.isCloser = true := by
    rw [hclose]
    rfl
  have hend := (groupEnd?_closer hcloser).mpr (hmid.mpr hbalanced)
  have hclassify := classify_eq file hscan
  rw [statements, statementsFrom_function hfn (hkind ▸ hword) hlb, groupEnd?_newline hnl,
    hend] at hclassify
  simp only [statementsFrom, Except.map] at hclassify
  refine ⟨_, hclassify, congrArg Content.function htext, ?_⟩
  simp only [parsed, slice, hstart, hstop, Nat.sub_zero, List.drop_zero, List.take_length]

/-- If the group ends where the text does, what stands in front of the brace there is a
    body that is scanned and balances. -/
theorem balanced_of_groupEnd {place : Position} {rs : List Piece} {body : Text} {close : Token}
    {rest : List Token} (hrs : Spells (some .newline) [] rs)
    (htext : textOf rs = body ++ ['\n'] ++ ['\x7d']) (hlast : body.getLast? ≠ some '\r')
    (hend : groupEnd? 0 (tokensOf place rs) = some (close, rest))
    (hstop : place.offset + (textOf rs).length ≤ close.stop.offset) :
    ∃ b, scan body = .ok b ∧ Balanced b.tokens := by
  have hcloser := groupEnd?_isCloser hend
  obtain ⟨front, hsplit⟩ := groupEnd?_suffix hend
  obtain ⟨qs, c, w, l, rfl, hqs, rfl, rfl⟩ := exists_last_lexeme hrs hsplit.symm hstop
  obtain ⟨hspells, ⟨-, hread, hlen⟩, -⟩ := spells_append.mp hrs
  obtain rfl : w = [] := by
    rw [(closer_of_read hread hcloser).2] at hlen
    exact List.eq_nil_of_length_eq_zero hlen
  obtain ⟨hqstext, -⟩ : textOf qs = body ++ ['\n'] ∧ [c] = ['\x7d'] := by
    rw [textOf_append] at htext
    exact List.append_inj' htext rfl
  obtain ⟨ps, hends, rfl⟩ := exists_endsLine_of_textOf hspells hqstext hlast
  have hps := ((hends.spells_iff _ _).mpr hspells).congr_before (show _ = signMayFollow none from rfl)
  refine ⟨_, scanFrom_textOf hps Position.start, ?_⟩
  rw [← hsplit, ← hqs] at hend
  exact (hends.balanced_iff _ place).mp ((groupEnd?_closer hcloser).mp hend)

/-- If the function is all that is there, the body in it is scanned and balances. -/
theorem balanced_of_classify {file : Option Text} (hname : scan e.name = .ok s)
    (hone : s.tokens = [t]) (hword : t.kind.isName = true) (hlast : e.body.getLast? ≠ some '\r')
    {st : Statement} (h : classify file e.render = .ok [st]) (htext : st.text = e.render) :
    ∃ b, scan e.body = .ok b ∧ Balanced b.tokens := by
  obtain ⟨name, hnametext, hnamespells, hnametokens⟩ := exists_pieces hname
  rw [hone] at hnametokens
  rcases hscan : scan e.render with err | r
  · simp [classify, ofSource, scanFile, hscan, Except.mapError, Except.map] at h
  rw [classify_eq file hscan, statements] at h
  obtain ⟨all, halltext, hallspells, halltokens⟩ := exists_pieces hscan
  obtain ⟨rs, rfl, hrstext⟩ :=
    (spells_headPieces hnamespells hnametokens.symm hword _).exists_append hallspells
      (halltext.trans (render_eq hnametext))
  have hrs := (spells_append.mp hallspells).2
  rw [afterAll_headPieces] at hrs
  obtain ⟨fn, nm, lb, nl, hhead, hfn, hstart, hsaid, hlb, hnl⟩ :=
    tokensOf_headPieces hnametokens.symm
  have hnm : nm.kind.isName = true := by
    rw [show nm.kind = t.kind from congrArg Prod.fst hsaid]
    exact hword
  have hlength := congrArg List.length halltext
  rw [textOf_append, List.length_append] at hlength
  rw [halltokens, tokensOf_append, hhead] at h
  rcases hend : groupEnd? 0 (tokensOf (Position.start.advance (textOf (headPieces name))) rs)
    with _ | ⟨close, rest⟩
  · simp only [List.cons_append, List.nil_append] at h
    rw [statementsFrom_function hfn hnm hlb, groupEnd?_newline hnl, hend] at h
    cases h
  · simp only [List.cons_append, List.nil_append] at h
    rw [statementsFrom_function hfn hnm hlb, groupEnd?_newline hnl, hend] at h
    obtain ⟨more, -, hst⟩ := map_eq_ok h
    rw [← (List.cons.inj hst).1] at htext
    have htaken := congrArg List.length htext
    simp only [parsed, slice, hstart, Nat.sub_zero, List.drop_zero, List.length_take] at htaken
    apply balanced_of_groupEnd hrs hrstext hlast hend
    rw [advance_offset]
    have hzero : Position.start.offset = 0 := rfl
    omega

end

/-- An entry point under a name that is one word becomes one function and nothing else,
    exactly if its body can be scanned by itself and balances. -/
theorem classify_render {known : KnownAliases} {name : Text} {sc : Script} {e : EntryPoint}
    {ws : List Report} (hextract : sc.extract known name = .ok (e, ws)) {s : Scan} {t : Token}
    (hname : scan name = .ok s) (hone : s.tokens = [t]) (hword : t.kind = .word)
    (file : Option Text) :
    (∃ st, classify file e.render = .ok [st] ∧ st.content = .function t.text ∧
      st.text = e.render) ↔ ∃ b, scan e.body = .ok b ∧ Balanced b.tokens := by
  obtain ⟨i, ds, -, -, rfl, hbody, -⟩ := extract_eq_ok hextract
  have hlast : e.body.getLast? ≠ some '\r' := by
    intro hcr
    rw [hbody, functionBody] at hcr
    exact absurd (Text.isBlank_of_getLast?_trimEnd hcr) (by decide)
  have hisName : t.kind.isName = true := by
    rw [hword]
    rfl
  constructor
  · rintro ⟨st, hclassify, -, htext⟩
    exact balanced_of_classify hname hone hisName hlast hclassify htext
  · rintro ⟨b, hb, hbalanced⟩
    exact classify_of_balanced file hname hone hisName hlast hb hbalanced

/-- A body whose brackets balance, a closing one in a string and a directive left out. -/
theorem classify_render_balanced :
    ∃ sc e ws, ofSource none "using namespace System
[CmdletBinding()]
param([string]$x)
if ($x) \x7b @(1, '\x7d') \x7d
".toList = .ok sc ∧ sc.extract Table.empty "Get-Foo".toList = .ok (e, ws) ∧
      ∃ st, classify none e.render = .ok [st] ∧ st.content = .function "Get-Foo" ∧
        st.text = e.render := by
  have hrun : ((ofSource none "using namespace System
[CmdletBinding()]
param([string]$x)
if ($x) \x7b @(1, '\x7d') \x7d
".toList).toOption.any fun sc => (sc.extract Table.empty "Get-Foo".toList).toOption.any fun r =>
      (scan r.1.body).toOption.any fun b => Balanced b.tokens) = true := by
    decide +kernel
  have hname : scan "Get-Foo".toList =
      .ok ⟨[⟨.word, "Get-Foo".toList, Position.start, ⟨7, 1, 8⟩, none⟩], ⟨7, 1, 8⟩⟩ := by
    decide +kernel
  obtain ⟨sc, hsource, hrun⟩ := toOption_any.mp hrun
  obtain ⟨⟨e, ws⟩, hextract, hrun⟩ := toOption_any.mp hrun
  obtain ⟨b, hb, hrun⟩ := toOption_any.mp hrun
  exact ⟨sc, e, ws, hsource, hextract, (classify_render hextract hname rfl rfl none).mpr
    ⟨b, hb, of_decide_eq_true hrun⟩⟩

/-- Whether the rendered text is one function of this name and nothing else. -/
def WrapsWhole (known : KnownAliases) (filename : Option Text) (name source : Text) : Prop :=
  ∀ sc e ws, ofSource filename source = .ok sc → sc.extract known name = .ok (e, ws) →
    ∃ st, classify filename e.render = .ok [st] ∧ st.content = .function name ∧
      st.text = e.render

theorem not_wrapsWhole {known : KnownAliases} {filename : Option Text} {name source : Text}
    (h : ((ofSource filename source).toOption.any fun sc =>
      (sc.extract known name).toOption.any fun r =>
        !(classify filename r.1.render).toOption.any fun sts => sts.length == 1) = true) :
    ¬ WrapsWhole known filename name source := by
  intro hall
  obtain ⟨sc, hsource, h⟩ := toOption_any.mp h
  obtain ⟨⟨e, ws⟩, hextract, h⟩ := toOption_any.mp h
  obtain ⟨st, hclassify, -, -⟩ := hall sc e ws hsource hextract
  simp [hclassify, Except.toOption] at h

/-- A closing brace outside all groups ends the function, and what follows it is refused or
    is a function of its own. -/
theorem classify_render_leaks :
    (∃ s t, scan "Get-Foo".toList = .ok s ∧ s.tokens = [t] ∧ t.kind = .word) ∧
    ¬ WrapsWhole Table.empty none "Get-Foo" "param() \x7d" ∧
    ¬ WrapsWhole Table.empty none "Get-Foo" "param()\n\x7d\nfunction B \x7b" := by
  refine ⟨?_, not_wrapsWhole (by decide +kernel), not_wrapsWhole (by decide +kernel)⟩
  have hname : scan "Get-Foo".toList =
      .ok ⟨[⟨.word, "Get-Foo".toList, Position.start, ⟨7, 1, 8⟩, none⟩], ⟨7, 1, 8⟩⟩ := by
    decide +kernel
  exact ⟨_, _, hname, rfl, rfl⟩

end Script
end ScriptModule
