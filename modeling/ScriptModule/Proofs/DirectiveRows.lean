/-
  ScriptModule/Proofs/DirectiveRows.lean
  ======================================
  **Directives read in two ways.**  A source of nothing but directives is read as a row of
  statements; in front of a parameter block the same directives are looked for among all
  tokens.  Both readings give the same directives, and fail at the same place.
-/
import ScriptModule.Proofs.Composition
import ScriptModule.Proofs.EntryBody
import ScriptModule.Proofs.ParserSteps

namespace ScriptModule

open Lexeme

/-- The same report without the text that it shows. -/
def Report.bare (r : Report) : Report := { r with text := none }

namespace Script

open Grammar

/-! ### Rows of directives -/

/-- The tokens behind an import directive, as far as it goes. -/
def behindImport : List Token → List Token
  | [] => []
  | _ :: r => r.dropWhile isNamePart

theorem behindImport_length (ts : List Token) : (behindImport ts).length ≤ ts.length := by
  cases ts with
  | nil => exact Nat.le_refl 0
  | cons k r => exact Nat.le_succ_of_le (List.dropWhile_suffix isNamePart).length_le

/-- Whether nothing but directives stands between line ends, semicolons and remarks. -/
def onlyDirectives (ts : List Token) : Bool :=
  match ts with
  | [] => true
  | t :: r =>
    if isSeparator t || t.isRequirement then onlyDirectives r
    else t.kind == .usingWord && onlyDirectives (behindImport r)
termination_by ts.length
decreasing_by
  · simp
  · have := behindImport_length r
    simp only [List.length_cons]
    omega

theorem behindImport_eq {sc : Script} {t : Token} {ts : List Token} {p : Parsed Statement}
    (h : sc.usingDirective t ts = .ok p) : behindImport ts = p.rest := by
  obtain ⟨i, himport, -⟩ := usingDirective_iff.mp h
  generalize p.last = last at himport
  generalize p.rest = rest at himport ⊢
  cases himport
  rfl

theorem directive_of_isSeparator {t : Token} (h : isSeparator t = true) :
    ¬ t.kind = .usingWord ∧ ¬ t.isRequirement = true := by
  simp only [isSeparator, Token.isRemark, Bool.or_eq_true, Bool.and_eq_true, beq_iff_eq,
    Bool.not_eq_true'] at h
  rcases h with (hkind | hkind) | ⟨hkind, hremark⟩
  · simp [Token.isRequirement, hkind]
  · simp [Token.isRequirement, hkind]
  · simp [hkind, hremark]

/-! ### The two readings -/

/-- Whether directives are read as statements are: the same ones, or the same report, which
    may show more of the source. -/
def Agrees (alone : Except Report (List Statement)) (whole : Except Report (List Directive)) :
    Prop :=
  match alone with
  | .ok sts => ∃ ds, whole = .ok ds ∧ ds.map Directive.statement = sts
  | .error r => ∃ r', whole = .error r' ∧ r'.bare = r.bare

theorem Agrees.cons {alone : Except Report (List Statement)}
    {whole : Except Report (List Directive)} (h : Agrees alone whole) (d : Directive) :
    Agrees (alone.map (d.statement :: ·)) (whole.map (d :: ·)) := by
  cases alone with
  | error r =>
    obtain ⟨r', rfl, hr⟩ := h
    exact ⟨r', rfl, hr⟩
  | ok sts =>
    obtain ⟨ds, rfl, rfl⟩ := h
    exact ⟨d :: ds, rfl, rfl⟩

/-- A script in front of tokens of a longer one: the first of them is the line end behind
    its source. -/
structure InFront (sc whole : Script) (behind : List Token) : Prop where
  of : (Placement.mk 0 0 behind).Of sc whole
  behind : ∃ nl rest, behind = nl :: rest ∧ nl.kind = .newline ∧ nl.start = sc.stop

theorem tokens_mk (behind ts : List Token) :
    (Placement.mk 0 0 behind).tokens ts = ts ++ behind := by
  have hid : (Placement.mk 0 0 behind).token = id := funext token_moved_zero
  rw [Placement.tokens, hid, List.map_id]

section

variable {sc whole : Script} {behind : List Token} (h : InFront sc whole behind)

include h

theorem InFront.bare_reportToken (p : Problem) (t : Token) :
    (whole.reportToken p t).bare = (sc.reportToken p t).bare := by
  rw [Script.reportToken, Script.reportToken, h.of.filename]
  rfl

/-- A report about the end of a source is one about the line end behind it. -/
theorem InFront.bare_report (p : Problem) (ts : List Token) :
    (whole.report p (ts ++ behind)).bare = (sc.report p ts).bare := by
  cases ts with
  | cons t ts => exact h.bare_reportToken p t
  | nil =>
    obtain ⟨nl, rest, hbehind, -, hstart⟩ := h.behind
    rw [List.nil_append, hbehind, Script.report, Script.reportToken, Script.report, h.of.filename,
      hstart]
    rfl

theorem InFront.requirement (t : Token) : whole.requirement t = sc.requirement t := by
  rw [Script.requirement, Script.requirement, h.of.filename]

/-- An import directive that is read is read in front of more tokens as well. -/
theorem InFront.usingDirective_ok {t : Token} {ts : List Token} {p : Parsed Statement}
    (hin : Inside sc ts) (hparse : sc.usingDirective t ts = .ok p) :
    whole.usingDirective t (ts ++ behind) = .ok ⟨p.value, p.last, p.rest ++ behind⟩ := by
  obtain ⟨i, himport, hp⟩ := usingDirective_iff.mp hparse
  have himport' := h.of.recast.importing_tokens himport hin
  have hlast := hin p.last (himport.extent.subset List.mem_cons_self)
  have hstated := h.of.stated_token (t := t) (.importing i) hlast
  change Importing whole ((Placement.mk 0 0 behind).tokens ts) i _
    ((Placement.mk 0 0 behind).tokens p.rest) at himport'
  rw [tokens_mk, tokens_mk] at himport'
  refine usingDirective_iff.mpr ⟨i, himport', ?_⟩
  have hvalue : p.value = stated sc (.importing i) t p.last := by
    rw [hp]
    rfl
  rw [below_zero, ← hvalue] at hstated
  exact congrArg (fun v => Parsed.mk v p.last (p.rest ++ behind)) hstated.symm

/-- One that is not read is refused at the same place. -/
theorem InFront.usingDirective_error {t : Token} {ts : List Token} {r : Report}
    (hparse : sc.usingDirective t ts = .error r) :
    ∃ r', whole.usingDirective t (ts ++ behind) = .error r' ∧ r'.bare = r.bare := by
  obtain ⟨nl, more, hbehind, hnewline, -⟩ := h.behind
  have hend : endsDirective nl.kind = true := by rw [hnewline]; rfl
  have hpart : isNamePart nl = false := by simp [isNamePart, hend]
  cases ts with
  | nil =>
    cases hparse
    refine ⟨whole.report .missingImportKind behind, ?_, h.bare_report _ []⟩
    rw [List.nil_append, hbehind, Script.usingDirective, if_pos hend]
    rfl
  | cons k ts =>
    rw [Script.usingDirective] at hparse
    rw [List.cons_append, Script.usingDirective]
    split at hparse
    · next hkind =>
      cases hparse
      rw [if_pos hkind]
      exact ⟨_, rfl, h.bare_reportToken _ k⟩
    · next hkind =>
      dsimp only at hparse
      split at hparse
      · next htake =>
        cases hparse
        have hdrop : ts.dropWhile isNamePart = ts := by
          have hall := List.takeWhile_append_dropWhile (p := isNamePart) (l := ts)
          rwa [htake, List.nil_append] at hall
        have hnone : (ts ++ behind).takeWhile isNamePart = [] ∧
            (ts ++ behind).dropWhile isNamePart = ts ++ behind := by
          cases ts with
          | nil => simp [hbehind, hpart]
          | cons u us =>
            have hu : isNamePart u = false := by
              rw [List.takeWhile_cons] at htake
              split at htake
              · cases htake
              · next hu => exact Bool.eq_false_iff.mpr hu
            simp [hu]
        rw [if_neg hkind, hnone.1, hnone.2, hdrop]
        exact ⟨_, rfl, h.bare_report _ ts⟩
      · cases hparse

/-- In front of a parameter block the directives of a row are read as its statements are. -/
theorem InFront.directives_agree {ts : List Token} (honly : onlyDirectives ts = true)
    (hin : Inside sc ts) :
    Agrees (sc.statementsFrom ts) (whole.directives (ts.length + 1) (ts ++ behind)) := by
  fun_induction onlyDirectives ts with
  | case1 =>
    obtain ⟨nl, more, hbehind, hnewline, -⟩ := h.behind
    have husing : ¬ nl.kind = .usingWord := by simp [hnewline]
    have hrequirement : ¬ nl.isRequirement = true := by simp [Token.isRequirement, hnewline]
    rw [List.nil_append, hbehind, statementsFrom, directives, if_neg husing, if_neg hrequirement,
      List.length_nil, directives]
    exact ⟨[], rfl, rfl⟩
  | case2 t r hidle ih =>
    have hrest := ih honly (hin.of_suffix (List.suffix_cons t r))
    rw [statementsFrom_cons, List.cons_append, List.length_cons, directives]
    by_cases hseparator : isSeparator t = true
    · have hneither := directive_of_isSeparator hseparator
      rw [if_pos hseparator, if_neg hneither.1, if_neg hneither.2]
      exact hrest
    · have hrequirement : t.isRequirement = true := by simpa [hseparator] using hidle
      have hcomment := comment_of_isRequirement hrequirement
      have husing : ¬ t.kind = .usingWord := by simp [hcomment]
      rw [if_neg hseparator, if_pos hcomment, if_neg husing, if_pos hrequirement, h.requirement]
      cases sc.requirement t with
      | error e => exact ⟨e, rfl, rfl⟩
      | ok st => exact hrest.cons ⟨st, t.start.offset, t.stop.offset⟩
  | case3 t r hidle ih =>
    obtain ⟨husing, hmore⟩ := (Bool.and_eq_true _ _).mp honly
    have husing : t.kind = .usingWord := beq_iff_eq.mp husing
    have hseparator : ¬ isSeparator t = true := fun hs => hidle (by simp [hs])
    have hcomment : ¬ t.kind = .comment := by simp [husing]
    have hr := hin.of_suffix (List.suffix_cons t r)
    rw [statementsFrom_cons, List.cons_append, List.length_cons, directives,
      if_neg hseparator, if_neg hcomment, if_pos husing, if_pos husing]
    cases hparse : sc.usingDirective t r with
    | error e =>
      obtain ⟨e', hwhole, he⟩ := h.usingDirective_error hparse
      rw [hwhole]
      exact ⟨e', rfl, he⟩
    | ok p =>
      have hbehind := behindImport_eq hparse
      have hshort := usingDirective_length hparse
      have hrest := ih hmore (hr.of_suffix (hbehind ▸ usingDirective_rest hparse))
      have hcount : r.length + 1 - ((r ++ behind).length - (p.rest ++ behind).length) =
          p.rest.length + 1 := by
        simp only [List.length_append]
        omega
      rw [hbehind] at hrest
      rw [h.usingDirective_ok hr hparse]
      dsimp only
      rw [hcount]
      exact hrest.cons ⟨p.value, t.start.offset, p.last.stop.offset⟩

end

/-! ### A parameter block behind -/

/-- Whether a token is a bracket or the keyword of a parameter block. -/
def marksBlock (t : Token) : Bool :=
  t.kind.isOpener || t.kind.isCloser || t.kind == .paramWord

theorem paramIndex?_append {ts rest : List Token} {param : Token}
    (hplain : ∀ t ∈ ts, marksBlock t = false) (hparam : param.kind = .paramWord) :
    paramIndex? (ts ++ param :: rest) = some ts.length := by
  unfold paramIndex?
  induction ts with
  | nil => simp [paramIndexFrom, hparam]
  | cons t ts ih =>
    rw [List.forall_mem_cons] at hplain
    obtain ⟨ht, hmore⟩ := hplain
    simp only [marksBlock, Bool.or_eq_false_iff] at ht
    have hgroups : groupsAfter [] t.kind = [] := by simp [groupsAfter, ht.1.1, ht.1.2]
    rw [List.cons_append, paramIndexFrom, ht.2, hgroups, ih hmore]
    rfl

theorem attributeGroups_of_plain {back : List Token}
    (hplain : ∀ t ∈ back, t.kind ≠ .rightBracket) : attributeGroups back = [] := by
  rw [attributeGroups]
  split
  · rfl
  · next t r hd =>
    have ht := hplain t ((skipBlank_suffix back).subset (hd ▸ List.mem_cons_self))
    rw [if_neg ht]

/-- In front of a parameter block, plain tokens declare no aliases. -/
theorem aliasesBefore_of_plain {sc : Script} {n : Nat}
    (hplain : ∀ t ∈ sc.tokens.take n, t.kind ≠ .rightBracket) : sc.aliasesBefore n = .ok [] := by
  have hgroups : attributeGroups (sc.tokens.take n).reverse = [] := by
    apply attributeGroups_of_plain
    intro t ht
    exact hplain t (List.mem_reverse.mp ht)
  rw [aliasesBefore, hgroups]
  rfl

/-- A script of directives in front of a parameter block is extracted exactly if they are
    read as statements, and then they are the directives. -/
theorem InFront.extract_agrees {sc whole : Script} {nl param : Token} {rest : List Token}
    (h : InFront sc whole (nl :: param :: rest)) (hparam : param.kind = .paramWord)
    (honly : onlyDirectives sc.tokens = true) (hplain : ∀ t ∈ sc.tokens, marksBlock t = false)
    (hin : Inside sc sc.tokens) (hwhole : whole.tokens = sc.tokens ++ nl :: param :: rest)
    (known : KnownAliases) (name : Text) :
    (∀ sts, sc.statements = .ok sts →
      ∃ e ws, whole.extract known name = .ok (e, ws) ∧ e.directives = sts) ∧
    ∀ r, sc.statements = .error r →
      ∃ r', whole.extract known name = .error r' ∧ r'.bare = r.bare := by
  obtain ⟨_, _, hbehind, hnewline, -⟩ := h.behind
  cases hbehind
  have hplain' : ∀ t ∈ sc.tokens ++ [nl], marksBlock t = false := by
    intro t ht
    rcases List.mem_append.mp ht with ht | ht
    · exact hplain t ht
    · rw [List.mem_singleton.mp ht, marksBlock, hnewline]
      rfl
  have htokens : whole.tokens = (sc.tokens ++ [nl]) ++ param :: rest := by simp [hwhole]
  have hlength : (sc.tokens ++ [nl]).length = sc.tokens.length + 1 := by simp
  have hindex : paramIndex? whole.tokens = some (sc.tokens.length + 1) := by
    rw [htokens, paramIndex?_append hplain' hparam, hlength]
  have haliases : whole.aliasesBefore (sc.tokens.length + 1) = .ok [] := by
    apply aliasesBefore_of_plain
    intro t ht hkind
    rw [htokens, ← hlength, List.take_left] at ht
    have hmark := hplain' t ht
    rw [marksBlock, hkind] at hmark
    cases hmark
  have hagrees := h.directives_agree honly hin
  rw [← hwhole] at hagrees
  unfold Script.extract statements
  rw [hindex]
  dsimp only
  constructor
  · intro sts hsts
    rw [hsts] at hagrees
    obtain ⟨ds, hds, hdirectives⟩ := hagrees
    rw [hds, haliases]
    exact ⟨_, _, rfl, hdirectives⟩
  · intro r hr
    rw [hr] at hagrees
    obtain ⟨r', hr', hbare⟩ := hagrees
    rw [hr']
    exact ⟨r', rfl, hbare⟩

/-! ### Sources -/

/-- Whether a line end behind a text is a token of its own, so that no backtick continues
    the last line. -/
def EndsLastLine (a : Text) : Prop :=
  ∃ s w, scan a = .ok s ∧ scan (a ++ ['\n']) = .ok w ∧ w.tokens.length = s.tokens.length + 1

theorem EndsLastLine.not_open {ps : List Piece} (h : EndsLastLine (textOf ps))
    (hps : Spells none [] ps) : ∀ p ∈ ps.getLast?, ¬ p.Open := by
  intro p hp hopen
  obtain ⟨front, rfl⟩ := List.getLast?_eq_some_iff.mp hp
  obtain ⟨s, w, hs, hw, hlength⟩ := h
  obtain ⟨more, htext, hgap⟩ : ∃ more, p.text = '\x60' :: more ∧
      gapLength ('\x60' :: (more ++ ['\n'] ++ [])) = (more ++ ['\n']).length + 1 := by
    rcases hopen with hopen | hopen
    · exact ⟨[], hopen, rfl⟩
    · exact ⟨['\r'], hopen, rfl⟩
  -- the line end goes with the open piece, and no token is added
  have hall : Spells none [] (front ++ [.gap '\x60' (more ++ ['\n'])]) := by
    refine spells_append.mpr ⟨(spells_append.mp hps).1.change_rest ?_ ?_ ?_, hgap, trivial⟩
    · rw [textOf_cons, textOf_cons, htext]
      have hahead := (Ahead.newline [] []).append ('\x60' :: more)
      simpa [Piece.text] using hahead
    · intro ho
      simp [opensHereString, Piece.text] at ho
    · rintro q hq ho ⟨r, hr⟩
      cases hr
  have hline : textOf (front ++ [.gap '\x60' (more ++ ['\n'])]) =
      textOf (front ++ [p]) ++ ['\n'] := by
    rw [textOf_append, textOf_append, textOf_cons, textOf_cons, htext]
    simp [Piece.text]
  have hcontinued := scanFrom_textOf hall Position.start
  rw [hline] at hcontinued
  cases hs.symm.trans (scanFrom_textOf hps Position.start)
  cases hw.symm.trans hcontinued
  simp only [tokensOf_append, List.length_append] at hlength
  change _ + 0 = _ + _ + 1 at hlength
  omega

/-- Behind a text that ends its last line, another text is scanned as it is by itself. -/
theorem EndsLastLine.scan_behind {a b : Text} {s : Scan} (h : EndsLastLine a)
    (hs : scan a = .ok s) :
    (∀ r, scan b = .ok r → ∃ w nl, scan (a ++ '\n' :: b) = .ok w ∧ nl.kind = .newline ∧
      nl.start = s.stop ∧ w.tokens = s.tokens ++ nl ::
        r.tokens.map (Token.moved (a.length + 1) (1 + a.count '\n'))) ∧
    ∀ w, scan (a ++ '\n' :: b) = .ok w → ∃ r, scan b = .ok r := by
  obtain ⟨ps, rfl, hps, -⟩ := exists_pieces hs
  have hopen := h.not_open hps
  cases hs.symm.trans (scanFrom_textOf hps Position.start)
  constructor
  · intro r hr
    exact scan_concat_newline hps hopen hr
  · intro w hw
    obtain ⟨qs, hqs, hspells, -⟩ := exists_pieces hw
    have htext : textOf qs = textOf (ps ++ [newlinePiece]) ++ b := by
      rw [hqs]
      simp [newlinePiece, Piece.text]
    obtain ⟨rs, rfl, rfl⟩ := (hps.concat_newline hopen b).exists_append hspells htext
    have hafter : signMayFollow (afterAll none (ps ++ [newlinePiece])) = signMayFollow none := by
      rw [afterAll, List.foldl_append]
      rfl
    have hbehind := (spells_append.mp hspells).2.congr_before hafter
    exact ⟨_, scanFrom_textOf hbehind Position.start⟩

/-- The entry point that a source becomes under a name, with the warnings about it. -/
def extractSource (known : KnownAliases) (filename : Option Text) (name source : Text) :
    Except Report (EntryPoint × List Report) :=
  (ofSource filename source).bind (extract known name)

theorem extractSource_eq (known : KnownAliases) (filename : Option Text) (name : Text)
    {source : Text} {s : Scan} (h : scan source = .ok s) :
    extractSource known filename name source =
      (Script.mk filename source s.tokens s.stop).extract known name := by
  simp [extractSource, ofSource, scanFile, h, Except.mapError, Except.map, Except.bind]

theorem extractSource_of_error (known : KnownAliases) (filename : Option Text) (name : Text)
    {source : Text} {e : ScanError} (h : scan source = .error e) :
    ∃ r, extractSource known filename name source = .error r := by
  simp [extractSource, ofSource, scanFile, h, Except.mapError, Except.map, Except.bind]

/-- A text of nothing but directives that may stand above a parameter block. -/
structure IsDirectiveRow (above : Text) (s : Scan) : Prop where
  scanned : scan above = .ok s
  only : onlyDirectives s.tokens = true
  plain : ∀ t ∈ s.tokens, marksBlock t = false
  line : EndsLastLine above

/-- Whether the first token of a text is the keyword of a parameter block. -/
def StartsBlock (block : Text) : Prop :=
  ∀ r, scan block = .ok r → ∃ param rest, r.tokens = param :: rest ∧ param.kind = .paramWord

theorem startsBlock_of_scan {block : Text} {r : Scan} (hr : scan block = .ok r)
    (hfirst : r.tokens.head?.any (·.kind == .paramWord) = true) : StartsBlock block := by
  intro r' hr'
  cases hr.symm.trans hr'
  obtain ⟨param, hhead, hkind⟩ := (Option.any_eq_true ..).mp hfirst
  obtain ⟨rest, hrest⟩ := List.head?_eq_some_iff.mp hhead
  exact ⟨param, rest, hrest, beq_iff_eq.mp hkind⟩

section

variable {above block : Text} {s : Scan} (h : IsDirectiveRow above s)
  (known : KnownAliases) (filename : Option Text) (name : Text)

include h

theorem IsDirectiveRow.extract_scanned (hblock : StartsBlock block) {r : Scan}
    (hr : scan block = .ok r) :
    let whole := extractSource known filename name (above ++ '\n' :: block)
    (∀ sts, classify filename above = .ok sts →
      ∃ e ws, whole = .ok (e, ws) ∧ e.directives = sts) ∧
    ∀ r, classify filename above = .error r → ∃ r', whole = .error r' ∧ r'.bare = r.bare := by
  intro whole
  obtain ⟨param, rest, hfirst, hparam⟩ := hblock r hr
  obtain ⟨w, nl, hw, hnewline, hstart, htokens⟩ := (h.line.scan_behind h.scanned).1 r hr
  let move := Token.moved (above.length + 1) (1 + above.count '\n')
  have htokens : w.tokens = s.tokens ++ nl :: move param :: rest.map move := by
    rw [htokens, hfirst]
    rfl
  have hfront : InFront ⟨filename, above, s.tokens, s.stop⟩
      ⟨filename, above ++ '\n' :: block, w.tokens, w.stop⟩ (nl :: move param :: rest.map move) := by
    refine ⟨⟨rfl, ⟨[], '\n' :: block, rfl, rfl⟩, ?_⟩, nl, _, rfl, hnewline, hstart⟩
    intro t ht
    cases ht
    exact hnewline
  have hagrees := hfront.extract_agrees hparam h.only h.plain (scan_inside h.scanned) htokens
    known name
  rw [← extractSource_eq known filename name hw, ← classify_eq filename h.scanned] at hagrees
  exact hagrees

theorem IsDirectiveRow.extract_unscanned {e : ScanError} (hb : scan block = .error e) :
    ∃ r, extractSource known filename name (above ++ '\n' :: block) = .error r := by
  cases hw : scan (above ++ '\n' :: block) with
  | error e' => exact extractSource_of_error known filename name hw
  | ok w =>
    obtain ⟨r, hr⟩ := (h.line.scan_behind h.scanned).2 w hw
    cases hb.symm.trans hr

end

/-- Whether directives above a parameter block are extracted as they are classified. -/
structure ReadAlike (known : KnownAliases) (filename : Option Text) (name above block : Text) :
    Prop where
  directives : ∀ sts e ws, classify filename above = .ok sts →
    extractSource known filename name (above ++ '\n' :: block) = .ok (e, ws) → e.directives = sts
  failure : ∀ r, classify filename above = .error r →
    ∃ r', extractSource known filename name (above ++ '\n' :: block) = .error r'

/-- Nothing but directives above a parameter block: the entry point has the directives that
    are classified in the source above.  If the text of the block can be scanned, extraction
    succeeds exactly if classification does, and otherwise fails with the same problem at
    the same place. -/
theorem extract_directiveRow (known : KnownAliases) (filename : Option Text) (name : Text)
    {above block : Text} {s : Scan} (h : IsDirectiveRow above s) (hblock : StartsBlock block) :
    let whole := extractSource known filename name (above ++ '\n' :: block)
    ReadAlike known filename name above block ∧ ∀ r, scan block = .ok r →
      (∀ sts, classify filename above = .ok sts → ∃ result, whole = .ok result) ∧
      ∀ r, classify filename above = .error r → ∃ r', whole = .error r' ∧ r'.bare = r.bare := by
  intro whole
  cases hr : scan block with
  | error e =>
    obtain ⟨r', hr'⟩ := h.extract_unscanned known filename name hr
    refine ⟨⟨?_, fun _ _ => ⟨r', hr'⟩⟩, ?_⟩
    · intro sts e ws _ hextract
      cases hr'.symm.trans hextract
    · intro r hr
      cases hr
  | ok r =>
    obtain ⟨hok, herror⟩ := h.extract_scanned known filename name hblock hr
    refine ⟨⟨?_, ?_⟩, fun _ _ => ⟨?_, herror⟩⟩
    · intro sts e ws hsts hextract
      obtain ⟨e', ws', hextract', hdirectives⟩ := hok sts hsts
      cases hextract'.symm.trans hextract
      exact hdirectives
    · intro r hr
      obtain ⟨r', hr', -⟩ := herror r hr
      exact ⟨r', hr'⟩
    · intro sts hsts
      obtain ⟨e, ws, hextract, -⟩ := hok sts hsts
      exact ⟨(e, ws), hextract⟩

/-- Imports and a requirement in one row, with a remark above them and line ends of both
    kinds. -/
theorem extract_directiveRow_mixed :
    ∃ above block s, above = "# a
using namespace A.B; using module 'M'\r
#Requires -Version 5.1".toList ∧ block = "param($x)
-1".toList ∧ IsDirectiveRow above s ∧ StartsBlock block ∧
      ∃ sts e ws, classify none above = .ok sts ∧ sts.length = 3 ∧
        extractSource Table.empty none "F".toList (above ++ '\n' :: block) = .ok (e, ws) ∧
        e.directives = sts := by
  have habove : ((scan "# a
using namespace A.B; using module 'M'\r
#Requires -Version 5.1".toList).toOption.any fun s => (scan ("# a
using namespace A.B; using module 'M'\r
#Requires -Version 5.1".toList ++ ['\n'])).toOption.any fun w => (classify none "# a
using namespace A.B; using module 'M'\r
#Requires -Version 5.1".toList).toOption.any fun sts => onlyDirectives s.tokens ∧
        (∀ t ∈ s.tokens, marksBlock t = false) ∧ w.tokens.length = s.tokens.length + 1 ∧
        sts.length = 3) = true := by
    decide +kernel
  have hbelow : ((scan "param($x)
-1".toList).toOption.any fun r => r.tokens.head?.any (·.kind == .paramWord)) = true := by
    decide +kernel
  -- from here on only what has been run matters, not the texts
  generalize "# a
using namespace A.B; using module 'M'\r
#Requires -Version 5.1".toList = above at habove ⊢
  generalize "param($x)
-1".toList = block at hbelow ⊢
  obtain ⟨s, hs, habove⟩ := toOption_any.mp habove
  obtain ⟨w, hw, habove⟩ := toOption_any.mp habove
  obtain ⟨sts, hsts, habove⟩ := toOption_any.mp habove
  obtain ⟨honly, hplain, hlength, hcount⟩ := of_decide_eq_true habove
  obtain ⟨r, hr, hfirst⟩ := toOption_any.mp hbelow
  have hrow : IsDirectiveRow above s := ⟨hs, honly, hplain, ⟨s, w, hs, hw, hlength⟩⟩
  have hblock := startsBlock_of_scan hr hfirst
  obtain ⟨hread, hscanned⟩ := extract_directiveRow Table.empty none "F".toList hrow hblock
  obtain ⟨⟨e, ws⟩, hextract⟩ := (hscanned r hr).1 sts hsts
  exact ⟨above, block, s, rfl, rfl, hrow, hblock, sts, e, ws, hsts, hcount, hextract,
    hread.directives sts e ws hsts hextract⟩

/-- Whether every line with a token on it starts with a directive; the flag says whether a
    line starts here. -/
def linesStartDirectives (fresh : Bool) : List Token → Bool
  | [] => true
  | t :: ts => (t.kind == .newline || !fresh || t.kind == .usingWord || t.isRequirement) &&
      linesStartDirectives (t.kind == .newline) ts

/-- A text whose lines start with directives, in front of a parameter block. -/
structure LinesAbove (above block : Text) : Prop where
  lines : ∃ s, scan above = .ok s ∧ linesStartDirectives true s.tokens = true ∧
    ∀ t ∈ s.tokens, marksBlock t = false
  starts : StartsBlock block
  entry : ∃ w, scan (above ++ '\n' :: block) = .ok w ∧ (paramIndex? w.tokens).isSome = true

theorem linesAbove_of_run {above block : Text}
    (h : ((scan above).toOption.any fun s => (scan block).toOption.any fun r =>
      (scan (above ++ '\n' :: block)).toOption.any fun w =>
        linesStartDirectives true s.tokens ∧ (∀ t ∈ s.tokens, marksBlock t = false) ∧
          r.tokens.head?.any (·.kind == .paramWord) = true ∧
          (paramIndex? w.tokens).isSome = true) = true) : LinesAbove above block := by
  obtain ⟨s, hs, h⟩ := toOption_any.mp h
  obtain ⟨r, hr, h⟩ := toOption_any.mp h
  obtain ⟨w, hw, h⟩ := toOption_any.mp h
  obtain ⟨hlines, hplain, hfirst, hentry⟩ := of_decide_eq_true h
  exact ⟨⟨s, hs, hlines, hplain⟩, startsBlock_of_scan hr hfirst, ⟨w, hw, hentry⟩⟩

/-- A statement behind a semicolon is refused when the lines stand alone, and is cut away with
    its line above a parameter block; behind a backtick the block belongs to the import. -/
theorem extract_directiveRow_loses :
    (LinesAbove "using namespace A;b".toList "param()".toList ∧
      ¬ ReadAlike Table.empty none "F".toList "using namespace A;b".toList "param()".toList) ∧
    LinesAbove "using namespace A\x60".toList "param()".toList ∧
      ¬ ReadAlike Table.empty none "F".toList "using namespace A\x60".toList
        "param()".toList := by
  refine ⟨⟨linesAbove_of_run (by decide +kernel), ?_⟩, linesAbove_of_run (by decide +kernel), ?_⟩
  · intro hread
    have hrun : (!(classify none "using namespace A;b".toList).toOption.isSome &&
        (extractSource Table.empty none "F".toList
          ("using namespace A;b".toList ++ '\n' :: "param()".toList)).toOption.isSome) = true := by
      decide +kernel
    cases halone : classify none "using namespace A;b".toList with
    | ok sts =>
      rw [halone] at hrun
      cases hrun
    | error r =>
      obtain ⟨r', hr'⟩ := hread.failure r halone
      rw [halone, hr'] at hrun
      cases hrun
  · intro hread
    have hrun : ((classify none "using namespace A\x60".toList).toOption.any fun sts =>
        (extractSource Table.empty none "F".toList
          ("using namespace A\x60".toList ++ '\n' :: "param()".toList)).toOption.any fun r =>
            decide (r.1.directives ≠ sts)) = true := by
      decide +kernel
    obtain ⟨sts, hsts, hrun⟩ := toOption_any.mp hrun
    obtain ⟨⟨e, ws⟩, hextract, hrun⟩ := toOption_any.mp hrun
    exact of_decide_eq_true hrun (hread.directives sts e ws hsts hextract)

end Script
end ScriptModule
