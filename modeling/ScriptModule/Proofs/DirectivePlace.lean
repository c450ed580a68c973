/-
  ScriptModule/Proofs/DirectivePlace.lean
  =======================================
  **The place of a requirement line.**  A line with a requirement comment may stand at the top
  of a file or further down in front of the parameter block: the body and the directives are
  the same.  So are the aliases, unless the line comes to stand behind an attribute that
  declares some, with nothing but attributes between the line and the block.
-/
import ScriptModule.Proofs.AliasLines
import ScriptModule.Proofs.CutLines
import ScriptModule.Proofs.Rows

namespace ScriptModule

open Lexeme

/-- The same statement without its place. -/
def Statement.unplaced (st : Statement) : Statement := { st with span := none }

namespace Script

open Grammar

/-! ### Directives of rows -/

theorem takeWhile_isNamePart {nl : Token} (hnl : nl.kind = .newline) (r ys : List Token) :
    (r ++ nl :: ys).takeWhile isNamePart = r.takeWhile isNamePart ∧
      (r ++ nl :: ys).dropWhile isNamePart = r.dropWhile isNamePart ++ nl :: ys := by
  have hend : isNamePart nl = false := by simp [isNamePart, endsDirective, hnl]
  induction r with
  | nil => simp [hend]
  | cons t r ih =>
    rw [List.cons_append, List.takeWhile_cons, List.takeWhile_cons, List.dropWhile_cons,
      List.dropWhile_cons]
    cases isNamePart t <;> simp [ih]

/-- An import directive is read the same whatever follows the line end behind it. -/
theorem usingDirective_append (sc : Script) {nl : Token} (hnl : nl.kind = .newline) (t : Token)
    (xs ys : List Token) :
    sc.usingDirective t (xs ++ nl :: ys) =
      (sc.usingDirective t (xs ++ [nl])).map fun p => ⟨p.value, p.last, p.rest ++ ys⟩ := by
  have hend : endsDirective nl.kind = true := by rw [hnl]; rfl
  cases xs with
  | nil =>
    rw [List.nil_append, List.nil_append, usingDirective, usingDirective, if_pos hend, if_pos hend]
    rfl
  | cons k r =>
    rw [List.cons_append, List.cons_append, usingDirective, usingDirective]
    obtain ⟨htake, hdrop⟩ := takeWhile_isNamePart hnl r ys
    obtain ⟨htake', hdrop'⟩ := takeWhile_isNamePart hnl r []
    rw [htake, hdrop, htake', hdrop']
    split
    · rfl
    · rcases r.takeWhile isNamePart with _ | ⟨first, more⟩
      · -- what is refused is the token behind, and there is one
        have hreport : ∀ p us, sc.report p (r.dropWhile isNamePart ++ nl :: us) =
            sc.report p (r.dropWhile isNamePart ++ [nl]) := by
          intro p us
          cases r.dropWhile isNamePart <;> rfl
        simp only [hreport]
        rfl
      · simp [Except.map]

/-- Whether tokens are empty or end with a line end. -/
def EndsRow (ts : List Token) : Prop := ∀ t ∈ ts.getLast?, t.kind = .newline

theorem EndsRow.of_suffix {us ts : List Token} (h : EndsRow ts) (hsuffix : us <:+ ts) :
    EndsRow us := by
  obtain ⟨front, rfl⟩ := hsuffix
  intro t ht
  apply h
  rwa [List.getLast?_append_of_ne_nil _ (by rintro rfl; cases ht)]

/-- The directives of rows are those of the first and those of the second. -/
theorem directives_append (sc : Script) {xs : List Token} (hrow : EndsRow xs) (n : Nat)
    (ys : List Token) :
    sc.directives (xs.length + n) (xs ++ ys) =
      sc.directives xs.length xs >>= fun ds => (sc.directives n ys).map (ds ++ ·) := by
  induction hlength : xs.length using Nat.strongRecOn generalizing xs with
  | ind m ih =>
    cases xs with
    | nil =>
      subst hlength
      rw [List.length_nil, Nat.zero_add, List.nil_append, directives]
      cases sc.directives n ys <;> rfl
    | cons t r =>
      have hr := hrow.of_suffix (List.suffix_cons t r)
      have hm : m = r.length + 1 := hlength.symm
      have hrest := ih r.length (by omega) hr rfl
      rw [hm, Nat.add_right_comm, List.cons_append, directives, directives]
      by_cases husing : t.kind = .usingWord
      · rw [if_pos husing, if_pos husing]
        obtain ⟨q, nl, rfl⟩ : ∃ q nl, r = q ++ [nl] := by
          rcases List.eq_nil_or_concat' r with rfl | h
          · cases husing.symm.trans (hrow t rfl)
          · exact h
        have hnl : nl.kind = .newline := hr nl List.getLast?_concat
        rw [List.append_assoc, List.singleton_append, usingDirective_append sc hnl]
        cases hparse : sc.usingDirective t (q ++ [nl]) with
        | error e => rfl
        | ok p =>
          have hsuffix := usingDirective_rest hparse
          have hshort := hsuffix.length_le
          have hmore := ih p.rest.length (by omega) (hr.of_suffix hsuffix) rfl
          have hcount : (q ++ [nl]).length + n - ((q ++ nl :: ys).length - (p.rest ++ ys).length) =
              p.rest.length + n := by
            simp only [List.length_append, List.length_cons, List.length_nil] at hshort ⊢
            omega
          have hcount' : (q ++ [nl]).length - ((q ++ [nl]).length - p.rest.length) =
              p.rest.length := by omega
          simp only [Except.map, hcount, hcount', hmore]
          rcases sc.directives p.rest.length p.rest with e | ds
          · rfl
          · rcases sc.directives n ys with e | es <;> rfl
      · rw [if_neg husing, if_neg husing]
        by_cases hrequirement : t.isRequirement = true
        · rw [if_pos hrequirement, if_pos hrequirement]
          cases sc.requirement t with
          | error e => rfl
          | ok st =>
            simp only [hrest]
            rcases sc.directives r.length r with e | ds
            · rfl
            · rcases sc.directives n ys with e | es <;> rfl
        · rw [if_neg hrequirement, if_neg hrequirement, hrest]

theorem directives_append_iff {sc : Script} {xs : List Token} (hrow : EndsRow xs) {n : Nat}
    {ys : List Token} {ds : List Directive} :
    sc.directives (xs.length + n) (xs ++ ys) = .ok ds ↔
      ∃ as bs, sc.directives xs.length xs = .ok as ∧ sc.directives n ys = .ok bs ∧
        ds = as ++ bs := by
  rw [directives_append sc hrow]
  constructor
  · intro h
    obtain ⟨as, has, h⟩ := bind_eq_ok.mp h
    obtain ⟨bs, hbs, rfl⟩ := map_eq_ok h
    exact ⟨as, bs, has, hbs, rfl⟩
  · rintro ⟨as, bs, has, hbs, rfl⟩
    rw [has, hbs]
    rfl

/-! ### Directives further up -/

/-- Places that are so many characters and lines further up. -/
def raised (offset lines : Nat) : Recast :=
  ⟨fun q => ⟨q.offset - offset, q.line - lines, q.column⟩, []⟩

theorem raised_tokens (offset lines : Nat) (ts : List Token) :
    (raised offset lines).tokens ts = ts.map (raised offset lines).token := List.append_nil _

theorem raised_moved (offset lines : Nat) (t : Token) :
    (raised offset lines).token (t.moved offset lines) = t := by
  simp [raised, Recast.token, Token.moved, Position.moved]

theorem map_raised_moved (offset lines : Nat) (ts : List Token) :
    (ts.map (Token.moved offset lines)).map (raised offset lines).token = ts := by
  rw [List.map_map]
  exact (List.map_congr_left fun t _ => raised_moved offset lines t).trans (List.map_id _)

theorem EndsRow.moved {ts : List Token} (h : EndsRow ts) (offset lines : Nat) :
    EndsRow (ts.map (Token.moved offset lines)) := by
  intro t ht
  rw [List.getLast?_map] at ht
  obtain ⟨u, hu, rfl⟩ := Option.map_eq_some_iff.mp ht
  exact h u hu

/-- The same directive, so many characters further up. -/
structure Directive.Raised (offset : Nat) (d e : Directive) : Prop where
  statement : e.statement.unplaced = d.statement.unplaced
  start : e.start = d.start - offset
  stop : e.stop = d.stop - offset

theorem requirement_unplaced {sc whole : Script} (hfile : whole.filename = sc.filename)
    {t : Token} (u : Token) (htext : u.text = t.text) {st : Statement}
    (h : sc.requirement t = .ok st) :
    ∃ st', whole.requirement u = .ok st' ∧ st'.unplaced = st.unplaced := by
  obtain ⟨args, req, hargs, hoptions, rfl⟩ := requirement_iff.mp h
  refine ⟨_, requirement_iff.mpr ⟨args, req, htext ▸ hargs, hoptions, rfl⟩, ?_⟩
  rw [Statement.unplaced, Statement.unplaced, hfile, htext]

theorem directives_raised {offset lines : Nat} {sc whole : Script} {inside : Token → Prop}
    (h : (raised offset lines).Of sc whole inside) (hfile : whole.filename = sc.filename)
    {n : Nat} {ts : List Token} {ds : List Directive} (hin : Recast.Within inside ts)
    (hds : sc.directives n ts = .ok ds) :
    ∃ es, whole.directives n (ts.map (raised offset lines).token) = .ok es ∧
      List.Forall₂ (Directive.Raised offset) ds es := by
  fun_induction directives sc n ts generalizing ds with
  | case1 ts =>
    cases hds
    exact ⟨[], by rw [directives], .nil⟩
  | case2 n =>
    cases hds
    exact ⟨[], by rw [List.map_nil]; simp [directives], .nil⟩
  | case3 n t r husing e hparse => cases hds
  | case4 n t r husing p hparse ih =>
    obtain ⟨ds', hds', rfl⟩ := map_eq_ok hds
    have hr := hin.of_suffix (List.suffix_cons t r)
    have hrest := usingDirective_rest hparse
    obtain ⟨es, hes, hall⟩ := ih (hr.of_suffix hrest) hds'
    obtain ⟨i, himport, hp⟩ := usingDirective_iff.mp hparse
    have hlast := hr p.last (himport.extent.subset List.mem_cons_self)
    have himport' := h.importing_tokens himport hr
    rw [raised_tokens, raised_tokens] at himport'
    let whole' := whole.parsed (.importing i) ((raised offset lines).token t)
      ((raised offset lines).token p.last) (p.rest.map (raised offset lines).token)
    have hparse' : whole.usingDirective ((raised offset lines).token t)
        (r.map (raised offset lines).token) = .ok whole' :=
      usingDirective_iff.mpr ⟨i, himport', rfl⟩
    have hvalue : whole'.value.unplaced = p.value.unplaced := by
      rw [hp]
      simp only [whole', parsed, Statement.unplaced, hfile,
        h.slice (hin t List.mem_cons_self) hlast]
    refine ⟨⟨whole'.value, t.start.offset - offset, p.last.stop.offset - offset⟩ :: es, ?_,
      .cons ⟨hvalue, rfl, rfl⟩ hall⟩
    · have hcount : n - ((r.map (raised offset lines).token).length - whole'.rest.length) =
          n - (r.length - p.rest.length) := by simp [whole', parsed]
      have husing' : ((raised offset lines).token t).kind = .usingWord := husing
      rw [List.map_cons, directives, if_pos husing', hparse']
      simp only [hcount]
      exact congrArg (Except.map _) hes
  | case5 n t r husing hrequirement e hparse => cases hds
  | case6 n t r husing hrequirement st hparse ih =>
    obtain ⟨ds', hds', rfl⟩ := map_eq_ok hds
    obtain ⟨es, hes, hall⟩ := ih (hin.of_suffix (List.suffix_cons t r)) hds'
    obtain ⟨st', hparse', hsame⟩ :=
      requirement_unplaced hfile ((raised offset lines).token t) Recast.token_text hparse
    have husing' : ¬ ((raised offset lines).token t).kind = .usingWord := husing
    have hrequirement' : ((raised offset lines).token t).isRequirement = true := hrequirement
    refine ⟨⟨st', t.start.offset - offset, t.stop.offset - offset⟩ :: es, ?_,
      .cons ⟨hsame, rfl, rfl⟩ hall⟩
    rw [List.map_cons, directives, if_neg husing', if_pos hrequirement', hparse']
    simp only [hes]
    rfl
  | case7 n t r husing hrequirement ih =>
    obtain ⟨es, hes, hall⟩ := ih (hin.of_suffix (List.suffix_cons t r)) hds
    have husing' : ¬ ((raised offset lines).token t).kind = .usingWord := husing
    have hrequirement' : ¬ ((raised offset lines).token t).isRequirement = true := hrequirement
    refine ⟨es, ?_, hall⟩
    rw [List.map_cons, directives, if_neg husing', if_neg hrequirement', hes]

/-! ### Kept lines -/

/-- The lines from an offset on that have no character of a directive. -/
def keptFrom (o : Nat) (ls : List Text) (ds : List Directive) : List Text :=
  ((placedFrom o ls).filter fun l => ds.all fun d => !d.touches l).map Prod.snd

theorem placedFrom_append (o : Nat) (ls ms : List Text) :
    placedFrom o (ls ++ ms) = placedFrom o ls ++ placedFrom (o + ls.flatten.length) ms := by
  induction ls generalizing o with
  | nil => rfl
  | cons l ls ih =>
    rw [List.cons_append, placedFrom, placedFrom, ih, List.flatten_cons, List.length_append,
      Nat.add_assoc]
    rfl

theorem keptFrom_append (o : Nat) (ls ms : List Text) (ds : List Directive) :
    keptFrom o (ls ++ ms) ds = keptFrom o ls ds ++ keptFrom (o + ls.flatten.length) ms ds := by
  rw [keptFrom, placedFrom_append, List.filter_append, List.map_append]
  rfl

theorem fullLines_append {a : Text} (ha : a = [] ∨ a.getLast? = some '\n') (b : Text) :
    fullLines (a ++ b) = fullLines a ++ fullLines b := by
  fun_induction fullLines a with
  | case1 => rfl
  | case2 t ih =>
    have ht : t = [] ∨ t.getLast? = some '\n' := by
      cases t with
      | nil => exact .inl rfl
      | cons c t => exact .inr (by simpa [List.getLast?_cons_cons] using ha)
    rw [List.cons_append, fullLines, if_pos rfl, ih ht]
    rfl
  | case3 c t hc hnone ih =>
    have ht := flatten_fullLines t
    rw [hnone] at ht
    rw [← ht] at ha
    rcases ha with ha | ha
    · cases ha
    · exact absurd (Option.some.inj ha) hc
  | case4 c t hc l ls hmore ih =>
    have ht : t = [] ∨ t.getLast? = some '\n' := by
      cases t with
      | nil => exact .inl rfl
      | cons d t => exact .inr (by simpa [List.getLast?_cons_cons] using ha)
    rw [List.cons_append, fullLines, if_neg hc, ih ht, hmore]
    rfl

theorem bounds_of_mem_placedFrom {o : Nat} {ls : List Text} {x : Nat × Text}
    (h : x ∈ placedFrom o ls) : o ≤ x.1 ∧ x.1 + x.2.length ≤ o + ls.flatten.length := by
  induction ls generalizing o with
  | nil => cases h
  | cons l ls ih =>
    rw [List.flatten_cons, List.length_append]
    rcases List.mem_cons.mp h with rfl | h
    · exact ⟨Nat.le_refl o, by simp only; omega⟩
    · have := ih h
      omega

/-- Directives that lie elsewhere cut no line. -/
theorem not_touches_elsewhere {o : Nat} {ls : List Text} {ds : List Directive}
    (h : ∀ d ∈ ds, d.stop ≤ o ∨ o + ls.flatten.length ≤ d.start) {x : Nat × Text}
    (hx : x ∈ placedFrom o ls) : (ds.all fun d => !d.touches x) = true := by
  rw [List.all_eq_true]
  intro d hd
  have hplace := h d hd
  obtain ⟨hfirst, hlast⟩ := bounds_of_mem_placedFrom hx
  simp only [Directive.touches, Bool.not_eq_true', List.any_eq_false, List.mem_range,
    Bool.and_eq_true, decide_eq_true_eq]
  omega

/-- Directives in front of a line boundary and behind it each cut the lines on their side. -/
theorem keptFrom_split {o n : Nat} {ls ms : List Text} {ds es : List Directive}
    (hn : o + ls.flatten.length = n) (hds : ∀ d ∈ ds, d.stop ≤ n) (hes : ∀ e ∈ es, n ≤ e.start) :
    keptFrom o (ls ++ ms) (ds ++ es) = keptFrom o ls ds ++ keptFrom n ms es := by
  subst hn
  rw [keptFrom_append]
  congr 1
  · rw [keptFrom, keptFrom]
    congr 1
    apply List.filter_congr
    intro x hx
    rw [List.all_append, not_touches_elsewhere (fun e he => .inr (hes e he)) hx, Bool.and_true]
  · rw [keptFrom, keptFrom]
    congr 1
    apply List.filter_congr
    intro x hx
    rw [List.all_append, not_touches_elsewhere (fun d hd => .inl (hds d hd)) hx, Bool.true_and]

/-- Lines and directives further up are kept and cut as they were. -/
theorem keptFrom_raised {offset : Nat} {ds es : List Directive}
    (h : List.Forall₂ (Directive.Raised offset) ds es) (o : Nat) (ls : List Text) :
    keptFrom o ls es = keptFrom (o + offset) ls ds := by
  have hplaced : ∀ o, placedFrom (o + offset) ls =
      (placedFrom o ls).map fun x => (x.1 + offset, x.2) := by
    induction ls with
    | nil => exact fun _ => rfl
    | cons l ls ih =>
      intro o
      rw [placedFrom, placedFrom, Nat.add_right_comm, ih]
      rfl
  have htouches : ∀ x : Nat × Text, (ds.all fun d => !d.touches (x.1 + offset, x.2)) =
      es.all fun e => !e.touches x := by
    intro x
    induction h with
    | nil => rfl
    | @cons d e ds es hd _ ih =>
      have hsame : d.touches (x.1 + offset, x.2) = e.touches x := by
        unfold Directive.touches
        rw [hd.start, hd.stop]
        congr 1
        funext k
        rw [Bool.eq_iff_iff]
        simp only [Bool.and_eq_true, decide_eq_true_eq]
        omega
      rw [List.all_cons, List.all_cons, ih, hsame]
  rw [keptFrom, keptFrom, hplaced, List.filter_map, List.map_map]
  congr 1
  apply List.filter_congr
  intro x _
  exact (htouches x).symm

/-! ### The parameter keyword -/

def groupsBehind (groups : List TokenKind) (ts : List Token) : List TokenKind :=
  ts.foldl (fun gs t => groupsAfter gs t.kind) groups

theorem paramIndexFrom_append (groups : List TokenKind) (xs ys : List Token) :
    paramIndexFrom groups (xs ++ ys) =
      match paramIndexFrom groups xs with
      | some i => some i
      | none => (paramIndexFrom (groupsBehind groups xs) ys).map (· + xs.length) := by
  induction xs generalizing groups with
  | nil => simp [paramIndexFrom, groupsBehind]
  | cons t xs ih =>
    rw [List.cons_append, paramIndexFrom, paramIndexFrom, ih]
    split
    · rfl
    · cases paramIndexFrom (groupsAfter groups t.kind) xs with
      | some i => rfl
      | none =>
        simp only [Option.map_none, Option.map_map]
        rfl

theorem paramIndexFrom_lt {groups : List TokenKind} {ts : List Token} {i : Nat}
    (h : paramIndexFrom groups ts = some i) : i < ts.length := by
  obtain ⟨p, hp, -⟩ := paramIndexFrom_kind h
  exact (List.getElem?_eq_some_iff.mp hp).1

theorem paramIndexFrom_map {f : Token → Token} (hf : ∀ t, (f t).kind = t.kind)
    (groups : List TokenKind) (ts : List Token) :
    paramIndexFrom groups (ts.map f) = paramIndexFrom groups ts ∧
      groupsBehind groups (ts.map f) = groupsBehind groups ts := by
  induction ts generalizing groups with
  | nil => exact ⟨rfl, rfl⟩
  | cons t ts ih =>
    obtain ⟨hindex, hgroups⟩ := ih (groupsAfter groups t.kind)
    rw [List.map_cons, paramIndexFrom, paramIndexFrom, hf, hindex]
    refine ⟨rfl, ?_⟩
    rw [groupsBehind, List.foldl_cons, hf]
    exact hgroups

/-- A line of a comment changes nothing of the groups around it. -/
theorem DirectiveLine.paramIndexFrom_eq {r nl : Token} (h : DirectiveLine r nl)
    (groups : List TokenKind) (ts : List Token) :
    paramIndexFrom groups (r :: nl :: ts) = (paramIndexFrom groups ts).map (· + 2) := by
  rw [paramIndexFrom, paramIndexFrom, h.comment, h.newline]
  simp [groupsAfter, TokenKind.isOpener, TokenKind.isCloser, TokenKind.closer?,
    Function.comp_def]

/-- The keyword has the same index with the line at the top and further down in front of it. -/
theorem paramIndex?_moved {r nl r' nl' : Token} (h : DirectiveLine r nl)
    (h' : DirectiveLine r' nl') {f : Token → Token} (hf : ∀ t, (f t).kind = t.kind)
    {front back : List Token} {i : Nat}
    (hi : paramIndex? (r :: nl :: (front.map f ++ back)) = some i)
    (hfront : front.length + 2 ≤ i) : paramIndex? (front ++ (r' :: nl' :: back)) = some i := by
  unfold paramIndex? at hi ⊢
  rw [h.paramIndexFrom_eq] at hi
  obtain ⟨j, hj, rfl⟩ := Option.map_eq_some_iff.mp hi
  obtain ⟨hindex, hgroups⟩ := paramIndexFrom_map hf [] front
  have hnone : paramIndexFrom [] front = none := by
    rcases hsome : paramIndexFrom [] front with _ | k
    · rfl
    · rw [paramIndexFrom_append, hindex, hsome] at hj
      cases hj
      have hlt := paramIndexFrom_lt hsome
      omega
  rw [paramIndexFrom_append, hindex, hnone, hgroups, List.length_map] at hj
  obtain ⟨m, hm, hjm⟩ := Option.map_eq_some_iff.mp hj
  rw [paramIndexFrom_append, hnone]
  simp only
  rw [h'.paramIndexFrom_eq, hm, ← hjm]
  simp only [Option.map_some, Option.some.injEq]
  omega

/-! ### The line at its two places -/

/-- The tokens of a source with a requirement line at its top: those of the line, and those in
    front of and behind the line boundary that it is moved to. -/
structure LineMoved (line a : Text) (r nl : Token) (front back : List Token) : Prop where
  isLine : DirectiveLine r nl
  rows : a = [] ∨ a.getLast? = some '\n'
  endsRow : EndsRow front
  proper : r.start.offset < r.stop.offset
  inside : r.stop.offset ≤ line.length
  feed : nl.start.offset = line.length
  above : ∀ t ∈ front, t.start.offset < t.stop.offset ∧ t.stop.offset ≤ a.length
  below : ∀ t ∈ back, line.length + 1 + a.length ≤ t.start.offset

theorem exists_lineMoved {line a b : Text} {s : Scan} (hline : IsRequirementLine line)
    (hscan : scan (line ++ '\n' :: (a ++ b)) = .ok s)
    (hfeed : ∃ t ∈ s.tokens, t.kind = .newline ∧ t.stop.offset = line.length + 1 + a.length) :
    ∃ r nl front back s', LineMoved line a r nl front back ∧
      s.tokens = r :: nl :: (front.map (Token.moved (line.length + 1) 1) ++ back) ∧
      scan (a ++ (line ++ '\n' :: b)) = .ok s' ∧
      s'.tokens = front ++ (r.moved a.length (a.count '\n') ::
        nl.moved a.length (a.count '\n') :: back) := by
  obtain ⟨ls, r, rfl, hls, hrow, hr, hrequirement⟩ := hline.pieces
  obtain ⟨ps, htext, hps, hs⟩ := exists_pieces hscan
  -- the line is cut off at the top, and the line end at the boundary cuts the rest in two
  obtain ⟨rs, rfl, hrs⟩ := (hrow.spells (a ++ b)).exists_append hps (by
    rw [htext, textOf_append, List.append_assoc]
    rfl)
  have hline' : (textOf (ls ++ [newlinePiece])).length = (textOf ls).length + 1 ∧
      (textOf (ls ++ [newlinePiece])).count '\n' = 1 := by
    have hcount := List.count_eq_zero.mpr hline.noFeed
    simp [newlinePiece, Piece.text, hcount]
  obtain ⟨t, ht, hkind, hboundary⟩ := hfeed
  rw [← hline'.1] at hboundary
  rw [hs] at ht
  obtain ⟨as, bs, rfl, hrowA, hbs, hlength⟩ := exists_rows_of_newline hrow hps ht hkind hboundary
  have hboth : textOf as ++ textOf bs = a ++ b := by simpa using hrs
  obtain ⟨rfl, rfl⟩ := List.append_inj hboth hlength
  let nl : Token := token ⟨.newline, 0, none⟩ (Position.start.advance (textOf ls)) '\n' []
  have htop : tokensOf .start (ls ++ [newlinePiece]) = [r, nl] := by
    rw [tokensOf_append, hr]
    rfl
  have hscanl := scanFrom_textOf hls .start
  have hscana := scanFrom_textOf (hrowA.spells []) .start
  have hrmem : r ∈ tokensOf .start ls := by simp [hr]
  have hnew := scanFrom_textOf (hrowA.before (hrow.before hbs)) .start
  have htext' : textOf (as ++ (ls ++ [newlinePiece] ++ bs)) =
      textOf as ++ (textOf ls ++ '\n' :: textOf bs) := by
    simp [newlinePiece, Piece.text]
  rw [htext'] at hnew
  refine ⟨r, nl, tokensOf .start as, (tokensOf .start bs).map
    (Token.moved ((textOf ls).length + 1 + (textOf as).length) (1 + (textOf as).count '\n')), _,
    ⟨⟨hrequirement, rfl⟩, hrowA.textOf, hrowA.tokensOf _, ?_, ?_, ?_, ?_, ?_⟩, ?_, hnew, ?_⟩
  · exact ((scan_tiling hscanl).nonempty r hrmem).2
  · exact @scan_inside none _ _ hscanl r hrmem
  · exact advance_start_offset _
  · exact fun t ht => ⟨((scan_tiling hscana).nonempty t ht).2, @scan_inside none _ _ hscana t ht⟩
  · intro t ht
    obtain ⟨u, -, rfl⟩ := List.mem_map.mp ht
    exact Nat.le_add_left _ _
  · rw [hs, hrow.tokensOf_append, htop, hrowA.tokensOf_append, hline'.1, hline'.2, List.map_append,
      List.map_map]
    simp only [Function.comp_def, Token.moved_moved, Nat.add_comm (textOf as).length,
      Nat.add_comm ((textOf as).count '\n')]
    rfl
  · rw [hrowA.tokensOf_append, hrow.tokensOf_append, htop, hline'.1, hline'.2, List.map_append,
      List.map_map]
    simp only [Function.comp_def, Token.moved_moved]
    rfl

/-! ### The directives at both places -/

theorem take_drop_append {a b : Text} {x n : Nat} (h : x + n ≤ a.length ∨ n = 0) :
    ((a ++ b).drop x).take n = (a.drop x).take n := by
  rcases h with h | rfl
  · rw [List.drop_append_of_le_length (by omega), List.take_append_of_le_length]
    rw [List.length_drop]
    omega
  · rw [List.take_zero, List.take_zero]

theorem slice_raised {sc whole : Script} {front mid back rest : Text} {offset lines : Nat}
    (hsource : sc.source = front ++ (mid ++ back)) (hwhole : whole.source = mid ++ rest)
    (hfront : front.length = offset) :
    (raised offset lines).Of sc whole fun t => offset ≤ t.start.offset ∧
      t.stop.offset ≤ offset + mid.length := by
  refine ⟨?_, fun t ht => by cases ht⟩
  rintro t u ⟨ht, -⟩ ⟨-, hu⟩
  change ((whole.source.drop (t.start.offset - offset)).take
    ((u.stop.offset - offset) - (t.start.offset - offset))) = _
  rw [slice, hsource, hwhole]
  obtain ⟨k, hk⟩ := Nat.exists_eq_add_of_le ht
  have hlength : u.stop.offset - offset - (t.start.offset - offset) =
      u.stop.offset - t.start.offset := by omega
  rw [hlength, hk, Nat.add_sub_cancel_left, ← List.drop_drop, ← hfront, List.drop_left,
    take_drop_append (by omega), take_drop_append (by omega)]

theorem slice_same {sc whole : Script} {front front' back : Text} {offset : Nat}
    (hsource : sc.source = front ++ back) (hwhole : whole.source = front' ++ back)
    (hfront : front.length = offset) (hfront' : front'.length = offset) :
    (raised 0 0).Of sc whole fun t => offset ≤ t.start.offset := by
  refine ⟨?_, fun t ht => by cases ht⟩
  intro t u ht _
  change ((whole.source.drop t.start.offset).take (u.stop.offset - t.start.offset)) = _
  obtain ⟨k, hk⟩ := Nat.exists_eq_add_of_le ht
  rw [slice, hsource, hwhole, hk, ← List.drop_drop, ← List.drop_drop, ← hfront, List.drop_left,
    hfront, ← hfront', List.drop_left]

theorem raised_zero (ts : List Token) : ts.map (raised 0 0).token = ts := List.map_id _

theorem DirectiveLine.endsRow {r nl : Token} (h : DirectiveLine r nl) : EndsRow [r, nl] := by
  rintro t ⟨⟩
  exact h.newline

theorem directives_line {sc : Script} {r nl : Token} (h : DirectiveLine r nl)
    {ds : List Directive} :
    sc.directives 2 [r, nl] = .ok ds ↔
      ∃ st, sc.requirement r = .ok st ∧ ds = [⟨st, r.start.offset, r.stop.offset⟩] := by
  have hr : ¬ r.kind = .usingWord := by rw [h.comment]; decide
  have hnl : ¬ nl.kind = .usingWord ∧ ¬ nl.isRequirement = true := by
    simp [h.newline, Token.isRequirement]
  rw [directives, if_neg hr, if_pos h.requirement, directives, if_neg hnl.1, if_neg hnl.2,
    directives]
  cases sc.requirement r with
  | error e => simp
  | ok st => simp [Except.map, eq_comm]

theorem directives_bounds {sc : Script} {n : Nat} {ts : List Token} {ds : List Directive}
    (h : sc.directives n ts = .ok ds) {o : Nat} :
    ((∀ t ∈ ts, o ≤ t.start.offset) → ∀ d ∈ ds, o ≤ d.start) ∧
      ((∀ t ∈ ts, t.stop.offset ≤ o) → ∀ d ∈ ds, d.stop ≤ o) := by
  constructor <;> intro hts d hd <;> obtain ⟨t, ht, u, hspans⟩ := directives_spans h d hd
  · rw [hspans.start]
    exact hts t (List.mem_of_mem_take ht)
  · rw [hspans.stop]
    apply hts
    rcases hspans.order with rfl | hpair
    · exact List.mem_of_mem_take ht
    · exact hpair.subset (List.mem_cons_of_mem _ List.mem_cons_self)

/-- The directives of a source with a requirement line at its top, and those of the source
    with the line further down, behind the text `a`. -/
inductive DirectivesMoved (line a : Text) : List Directive → List Directive → Prop where
  | intro {d d' : Directive} {as as' bs bs' : List Directive} :
      d'.statement.unplaced = d.statement.unplaced → d.start < d.stop → d.stop ≤ line.length →
      d'.start = d.start + a.length → d'.stop = d.stop + a.length →
      List.Forall₂ (Directive.Raised (line.length + 1)) as as' →
      List.Forall₂ (Directive.Raised 0) bs bs' →
      (∀ e ∈ as, line.length + 1 ≤ e.start ∧ e.stop ≤ line.length + 1 + a.length) →
      (∀ e ∈ bs, line.length + 1 + a.length ≤ e.start) →
      DirectivesMoved line a (d :: (as ++ bs)) (as' ++ d' :: bs')

/-- The tokens between the line at the top and the line boundary. -/
theorem LineMoved.between {line a : Text} {r nl : Token} {front back : List Token}
    (h : LineMoved line a r nl front back) :
    ∀ t ∈ front.map (Token.moved (line.length + 1) 1), line.length + 1 ≤ t.start.offset ∧
      t.start.offset < t.stop.offset ∧ t.stop.offset ≤ line.length + 1 + a.length := by
  intro t ht
  obtain ⟨u, hu, rfl⟩ := List.mem_map.mp ht
  have := h.above u hu
  simp only [Token.moved, Position.moved]
  omega

/-- With the line further down the same directives are read. -/
theorem LineMoved.directives {line a b : Text} {r nl : Token} {front back : List Token}
    (h : LineMoved line a r nl front back) (sc whole : Script)
    (hsource : sc.source = line ++ '\n' :: (a ++ b))
    (hwhole : whole.source = a ++ (line ++ '\n' :: b)) (hfile : whole.filename = sc.filename)
    {m : Nat} {ds : List Directive}
    (hds : sc.directives (front.length + 2 + m)
      (r :: nl :: (front.map (Token.moved (line.length + 1) 1) ++ back)) = .ok ds) :
    ∃ es, whole.directives (front.length + 2 + m) (front ++ (r.moved a.length (a.count '\n') ::
        nl.moved a.length (a.count '\n') :: back)) = .ok es ∧ DirectivesMoved line a ds es := by
  let lowered := front.map (Token.moved (line.length + 1) 1)
  have hlowered : EndsRow lowered := h.endsRow.moved _ _
  have hbetween : ∀ t ∈ lowered, line.length + 1 ≤ t.start.offset ∧
      t.stop.offset ≤ line.length + 1 + a.length :=
    fun t ht => ⟨(h.between t ht).1, (h.between t ht).2.2⟩
  -- the parts at the top, in front of the boundary and behind it
  have hcount : front.length + 2 + m = [r, nl].length + (lowered.length + m) := by
    simp only [lowered, List.length_map, List.length_cons, List.length_nil]
    omega
  rw [hcount] at hds
  obtain ⟨top, rest, htop, hrest, rfl⟩ :=
    (@directives_append_iff sc [r, nl] h.isLine.endsRow _ (lowered ++ back) _).mp hds
  obtain ⟨as, bs, has, hbs, rfl⟩ := (directives_append_iff hlowered).mp hrest
  obtain ⟨st, hst, rfl⟩ := (directives_line h.isLine).mp htop
  -- the same parts of the other source
  let r' := r.moved a.length (a.count '\n')
  let nl' := nl.moved a.length (a.count '\n')
  have hline' : DirectiveLine r' nl' := ⟨h.isLine.requirement, h.isLine.newline⟩
  have hold : sc.source = (line ++ ['\n']) ++ (a ++ b) := by simp [hsource]
  have hA : (raised (line.length + 1) 1).Of sc whole fun t => line.length + 1 ≤ t.start.offset ∧
      t.stop.offset ≤ line.length + 1 + a.length :=
    slice_raised hold hwhole (List.length_append)
  have hB : (raised 0 0).Of sc whole fun t => line.length + 1 + a.length ≤ t.start.offset := by
    apply slice_same (hold.trans (List.append_assoc _ _ _).symm)
      (show whole.source = (a ++ (line ++ ['\n'])) ++ b by simp [hwhole])
    · simp only [List.length_append, List.length_singleton]
    · simp only [List.length_append, List.length_singleton]
      omega
  obtain ⟨as', has', hall⟩ := directives_raised hA hfile hbetween has
  obtain ⟨bs', hbs', hall'⟩ := directives_raised hB hfile h.below hbs
  obtain ⟨st', hst', hsame⟩ := requirement_unplaced hfile r' (show r'.text = r.text from rfl) hst
  rw [map_raised_moved, List.length_map] at has'
  rw [raised_zero] at hbs'
  have htop' := (directives_line hline').mpr ⟨st', hst', rfl⟩
  have hrest' := (directives_append_iff hline'.endsRow).mpr ⟨_, _, htop', hbs', rfl⟩
  have hcount' : front.length + 2 + m = front.length + ([r', nl'].length + m) := by
    simp only [List.length_cons, List.length_nil]
    omega
  rw [hcount', List.singleton_append]
  refine ⟨_, (directives_append_iff h.endsRow).mpr ⟨_, _, has', hrest', rfl⟩,
    .intro hsame h.proper h.inside rfl rfl hall hall' ?_ ?_⟩
  · exact fun e he => ⟨(directives_bounds has).1 (fun t ht => (hbetween t ht).1) e he,
      (directives_bounds has).2 (fun t ht => (hbetween t ht).2) e he⟩
  · exact (directives_bounds hbs).1 h.below

theorem DirectivesMoved.perm {line a : Text} {ds es : List Directive}
    (h : DirectivesMoved line a ds es) :
    (es.map fun d => d.statement.unplaced).Perm (ds.map fun d => d.statement.unplaced) := by
  obtain ⟨hsame, -, -, -, -, hA, hB, -, -⟩ := h
  have hmap : ∀ {o : Nat} {ds es : List Directive}, List.Forall₂ (Directive.Raised o) ds es →
      (es.map fun d => d.statement.unplaced) = ds.map fun d => d.statement.unplaced := by
    intro o ds es hall
    induction hall with
    | nil => rfl
    | cons hd _ ih => rw [List.map_cons, List.map_cons, ih, hd.statement]
  rw [List.map_append, List.map_cons, List.map_cons, List.map_append, hmap hA, hmap hB, hsame]
  exact List.perm_middle

theorem fullLines_line {line : Text} (h : '\n' ∉ line) :
    fullLines (line ++ ['\n']) = [line ++ ['\n']] := by
  induction line with
  | nil => rfl
  | cons c line ih =>
    rw [List.mem_cons, not_or] at h
    rw [List.cons_append, fullLines, if_neg (Ne.symm h.1), ih h.2]

theorem keptFrom_cut {o : Nat} {l : Text} {d : Directive} (hproper : d.start < d.stop)
    (hstart : o ≤ d.start) (hstop : d.stop ≤ o + l.length) : keptFrom o [l] [d] = [] := by
  have htouch : d.touches (o, l) = true :=
    (Directive.touches_iff hproper (by omega)).mpr ⟨by omega, by omega⟩
  have hall : ([d].all fun d => !d.touches (o, l)) = false := by simp [htouch]
  rw [keptFrom, placedFrom, placedFrom, List.filter_singleton, hall]
  rfl

/-- With the line at the top, the other directives cut the lines that they stand on. -/
theorem keptLines_top {line a b : Text} {d : Directive} {as bs : List Directive}
    (hline : '\n' ∉ line) (ha : a = [] ∨ a.getLast? = some '\n') (hproper : d.start < d.stop)
    (hinside : d.stop ≤ line.length)
    (has : ∀ e ∈ as, line.length + 1 ≤ e.start ∧ e.stop ≤ line.length + 1 + a.length)
    (hbs : ∀ e ∈ bs, line.length + 1 + a.length ≤ e.start) :
    keptLines (line ++ '\n' :: (a ++ b)) (d :: (as ++ bs)) =
      keptFrom (line.length + 1) (fullLines a) as ++
        keptFrom (line.length + 1 + a.length) (fullLines b) bs := by
  have hlines : fullLines (line ++ '\n' :: (a ++ b)) =
      [line ++ ['\n']] ++ (fullLines a ++ fullLines b) := by
    rw [← fullLines_line hline, ← fullLines_append ha,
      ← fullLines_append (.inr List.getLast?_concat)]
    simp
  have hcut : keptFrom 0 [line ++ ['\n']] [d] = [] :=
    keptFrom_cut hproper (Nat.zero_le _) (by simp; omega)
  have hbehind : ∀ e ∈ as ++ bs, line.length + 1 ≤ e.start := by
    intro e he
    rcases List.mem_append.mp he with he | he
    · exact (has e he).1
    · exact Nat.le_trans (Nat.le_add_right _ _) (hbs e he)
  change keptFrom 0 (fullLines _) ([d] ++ (as ++ bs)) = _
  rw [hlines, keptFrom_split (by simp) (by simp; omega) hbehind, hcut,
    keptFrom_split (by rw [flatten_fullLines]) (fun e he => (has e he).2) hbs]
  rfl

/-- So they do with the line further down. -/
theorem keptLines_below {line a b : Text} {d : Directive} {as bs : List Directive}
    (hline : '\n' ∉ line) (ha : a = [] ∨ a.getLast? = some '\n') (hproper : d.start < d.stop)
    (hstart : a.length ≤ d.start) (hinside : d.stop ≤ line.length + a.length)
    (has : ∀ e ∈ as, e.stop ≤ a.length) (hbs : ∀ e ∈ bs, line.length + 1 + a.length ≤ e.start) :
    keptLines (a ++ (line ++ '\n' :: b)) (as ++ d :: bs) =
      keptFrom 0 (fullLines a) as ++
        keptFrom (line.length + 1 + a.length) (fullLines b) bs := by
  have hlines : fullLines (a ++ (line ++ '\n' :: b)) =
      fullLines a ++ ([line ++ ['\n']] ++ fullLines b) := by
    rw [← fullLines_line hline, ← fullLines_append (.inr List.getLast?_concat),
      ← fullLines_append ha]
    simp
  have hcut : keptFrom a.length [line ++ ['\n']] [d] = [] :=
    keptFrom_cut hproper hstart (by simp; omega)
  have hbehind : ∀ e ∈ [d] ++ bs, a.length ≤ e.start := by
    intro e he
    rcases List.mem_append.mp he with he | he
    · rw [List.mem_singleton.mp he]
      exact hstart
    · exact Nat.le_trans (Nat.le_add_left _ _) (hbs e he)
  change keptFrom 0 (fullLines _) (as ++ ([d] ++ bs)) = _
  rw [hlines, keptFrom_split (by rw [flatten_fullLines, Nat.zero_add]) has hbehind,
    keptFrom_split (by simp; omega) (by simp; omega) hbs, hcut]
  rfl

theorem exists_raised {o : Nat} {ds es : List Directive}
    (h : List.Forall₂ (Directive.Raised o) ds es) {e : Directive} (he : e ∈ es) :
    ∃ d ∈ ds, Directive.Raised o d e := by
  induction h with
  | nil => cases he
  | @cons d e' ds es hd _ ih =>
    rcases List.mem_cons.mp he with rfl | he
    · exact ⟨d, List.mem_cons_self, hd⟩
    · obtain ⟨d, hmem, hraised⟩ := ih he
      exact ⟨d, List.mem_cons_of_mem _ hmem, hraised⟩

/-- Of both sources the same lines are kept. -/
theorem DirectivesMoved.withoutDirectives {line a b : Text} {ds es : List Directive}
    (h : DirectivesMoved line a ds es) (hline : '\n' ∉ line)
    (ha : a = [] ∨ a.getLast? = some '\n')
    (hds : ∀ d ∈ ds, d.LiesIn (line ++ '\n' :: (a ++ b)))
    (hes : ∀ e ∈ es, e.LiesIn (a ++ (line ++ '\n' :: b))) :
    Script.withoutDirectives (a ++ (line ++ '\n' :: b)) es =
      Script.withoutDirectives (line ++ '\n' :: (a ++ b)) ds := by
  obtain @⟨d, d', as, as', bs, bs', -, hproper, hinside, hstart, hstop, hA, hB, has, hbs⟩ := h
  have has' : ∀ e ∈ as', e.stop ≤ a.length := by
    intro e he
    obtain ⟨u, hu, hraised⟩ := exists_raised hA he
    have := has u hu
    rw [hraised.stop]
    omega
  have hbs' : ∀ e ∈ bs', line.length + 1 + a.length ≤ e.start := by
    intro e he
    obtain ⟨u, hu, hraised⟩ := exists_raised hB he
    rw [hraised.start]
    exact hbs u hu
  rw [withoutDirectives_eq_keptLines hds, withoutDirectives_eq_keptLines hes,
    keptLines_top hline ha hproper hinside has hbs,
    keptLines_below hline ha (by omega) (by omega) (by omega) has' hbs',
    keptFrom_raised hA, keptFrom_raised hB, Nat.zero_add]
  rfl

/-! ### Entry points -/

/-- A line boundary in front of the parameter block that lies in no token and is not continued:
    a line end of its own stands in front of it. -/
structure LineBoundary (sc : Script) (o : Nat) : Prop where
  newline : ∃ t ∈ sc.tokens, t.kind = .newline ∧ t.stop.offset = o
  inFront : ∃ i param, paramIndex? sc.tokens = some i ∧ sc.tokens[i]? = some param ∧
    o ≤ param.start.offset

/-- The tokens from an offset on, up to the parameter keyword. -/
def tokensInFront (sc : Script) (o : Nat) : List Token :=
  (sc.tokens.take ((paramIndex? sc.tokens).getD 0)).filter fun t => o ≤ t.start.offset

theorem aliasesBefore_eq_ok {sc : Script} {i : Nat} {as : List AliasDeclaration} :
    sc.aliasesBefore i = .ok as ↔
      ∃ ass, (attributeGroups (sc.tokens.take i).reverse).reverse.mapM sc.groupAliases = .ok ass ∧
        ass.flatten = as := by
  constructor
  · exact map_eq_ok
  · rintro ⟨ass, hass, rfl⟩
    rw [aliasesBefore, hass]
    rfl

theorem reverse_take_append (xs back : List Token) (m : Nat) :
    ((xs ++ back).take (xs.length + m)).reverse = (back.take m).reverse ++ xs.reverse := by
  rw [List.take_length_add_append, List.reverse_append]

section

variable {line a : Text} {r nl r' nl' : Token} {front back : List Token}

/-- What stands in front of the keyword, read backwards, with the line at the top. -/
theorem reverse_take_top (m : Nat) :
    ((r :: nl :: (front.map (Token.moved (line.length + 1) 1) ++ back)).take
        (front.length + 2 + m)).reverse =
      (back.take m).reverse ++
        ((front.map (Token.moved (line.length + 1) 1)).reverse ++ [nl, r]) := by
  have hall := reverse_take_append ([r, nl] ++ front.map (Token.moved (line.length + 1) 1)) back m
  rw [List.length_append, List.length_map, List.length_cons, List.length_singleton,
    Nat.add_comm 2, List.reverse_append] at hall
  exact hall

/-- And with the line further down. -/
theorem reverse_take_below (m : Nat) :
    ((front ++ (r' :: nl' :: back)).take (front.length + 2 + m)).reverse =
      (back.take m).reverse ++ (nl' :: r' :: front.reverse) := by
  have hall := reverse_take_append (front ++ [r', nl']) back m
  rw [List.append_assoc, List.length_append, List.reverse_append] at hall
  exact hall

variable {sc whole : Script} {m : Nat} {as : List AliasDeclaration}

/-- With other tokens between the line and the keyword the aliases keep their names. -/
theorem LineMoved.aliases_apart (h : LineMoved line a r nl front back)
    (h' : DirectiveLine r' nl')
    (htokens : sc.tokens = r :: nl :: (front.map (Token.moved (line.length + 1) 1) ++ back))
    (htokens' : whole.tokens = front ++ (r' :: nl' :: back))
    (has : sc.aliasesBefore (front.length + 2 + m) = .ok as)
    (hapart : ¬ ∃ gs, AttributeBlock (back.take m).reverse gs []) :
    ∃ bs, whole.aliasesBefore (front.length + 2 + m) = .ok bs ∧
      bs.map AliasDeclaration.name = as.map AliasDeclaration.name := by
  obtain ⟨ass, hass, rfl⟩ := aliasesBefore_eq_ok.mp has
  rw [htokens, reverse_take_top] at hass
  have hfront : ∀ t ∈ (front.map (Token.moved (line.length + 1) 1)).reverse.head?,
      t.kind = .newline := by
    intro t ht
    rw [List.head?_reverse] at ht
    exact h.endsRow.moved _ _ t ht
  have hsaid : ∀ t, ((raised (line.length + 1) 1).token t).said = t.said := fun _ => rfl
  have hparted := parted_attributeGroups hsaid h.isLine h' hfront hapart
  rw [List.map_reverse, map_raised_moved] at hparted
  obtain ⟨bss, hbss, hsame⟩ := mapM_groupAliases hsaid whole (List.rel_reverse hparted)
    (fun g hg => brackets_of_mem_attributeGroups (List.mem_reverse.mp hg)) hass
  refine ⟨bss.flatten, aliasesBefore_eq_ok.mpr ⟨bss, ?_, rfl⟩, hsame⟩
  rw [htokens', reverse_take_below, hbss]

/-- With nothing but attributes between the line and the keyword the line ends their block,
    and the aliases are those of the attributes behind it. -/
theorem aliases_behind (h' : DirectiveLine r' nl')
    (htokens : sc.tokens = r :: nl :: (front.map (Token.moved (line.length + 1) 1) ++ back))
    (htokens' : whole.tokens = front ++ (r' :: nl' :: back))
    (has : sc.aliasesBefore (front.length + 2 + m) = .ok as) {gs : List (List Token)}
    (hblock : AttributeBlock (back.take m).reverse gs []) :
    ∃ bs ass, whole.aliasesBefore (front.length + 2 + m) = .ok bs ∧
      gs.reverse.mapM sc.groupAliases = .ok ass ∧
      bs.map AliasDeclaration.name = ass.flatten.map AliasDeclaration.name := by
  obtain ⟨ass, hass, rfl⟩ := aliasesBefore_eq_ok.mp has
  rw [htokens, reverse_take_top, (hblock.append _).groups, List.reverse_append,
    List.mapM_append] at hass
  obtain ⟨_, -, hass⟩ := bind_eq_ok.mp hass
  obtain ⟨cs, hcs, -⟩ := bind_eq_ok.mp hass
  have hgroups : attributeGroups (whole.tokens.take (front.length + 2 + m)).reverse = gs := by
    rw [htokens', reverse_take_below, (hblock.append _).groups, List.nil_append,
      h'.attributeGroups_eq, List.append_nil]
  obtain ⟨bss, hbss, hsame⟩ := mapM_groupAliases (f := id) (fun _ => rfl) whole
    (List.forall₂_same.mpr fun g _ => parted_refl id g)
    (fun g hg => brackets_of_mem_attributeGroups (hgroups ▸ List.mem_reverse.mp hg)) hcs
  exact ⟨bss.flatten, cs, aliasesBefore_eq_ok.mpr ⟨bss, by rw [hgroups, hbss], rfl⟩, hcs, hsame⟩

/-- The names of the aliases with the line further down. -/
theorem LineMoved.aliases (h : LineMoved line a r nl front back) (h' : DirectiveLine r' nl')
    (sc whole : Script)
    (htokens : sc.tokens = r :: nl :: (front.map (Token.moved (line.length + 1) 1) ++ back))
    (htokens' : whole.tokens = front ++ (r' :: nl' :: back))
    (has : sc.aliasesBefore (front.length + 2 + m) = .ok as) :
    ∃ bs, whole.aliasesBefore (front.length + 2 + m) = .ok bs ∧
      ((¬ ∃ gs, AttributeBlock (back.take m).reverse gs []) →
        bs.map AliasDeclaration.name = as.map AliasDeclaration.name) ∧
      ∀ gs, AttributeBlock (back.take m).reverse gs [] →
        ∃ ass, gs.reverse.mapM sc.groupAliases = .ok ass ∧
          bs.map AliasDeclaration.name = ass.flatten.map AliasDeclaration.name := by
  by_cases hblock : ∃ gs, AttributeBlock (back.take m).reverse gs []
  · obtain ⟨gs, hgs⟩ := hblock
    obtain ⟨bs, -, hbs, -, -⟩ := aliases_behind h' htokens htokens' has hgs
    refine ⟨bs, hbs, fun hapart => absurd ⟨gs, hgs⟩ hapart, fun gs' hgs' => ?_⟩
    obtain ⟨bs', ass, hbs', hass, hsame⟩ := aliases_behind h' htokens htokens' has hgs'
    cases hbs.symm.trans hbs'
    exact ⟨ass, hass, hsame⟩
  · obtain ⟨bs, hbs, hsame⟩ := h.aliases_apart h' htokens htokens' has hblock
    exact ⟨bs, hbs, fun _ => hsame, fun gs hgs => absurd ⟨gs, hgs⟩ hblock⟩

end

/-- The tokens between the line boundary and the parameter keyword. -/
theorem LineMoved.exists_between {line a : Text} {r nl : Token} {front back : List Token}
    (h : LineMoved line a r nl front back) {sc : Script}
    (htokens : sc.tokens = r :: nl :: (front.map (Token.moved (line.length + 1) 1) ++ back))
    (hplace : LineBoundary sc (line.length + 1 + a.length)) {i : Nat}
    (hi : paramIndex? sc.tokens = some i) :
    ∃ m, i = front.length + 2 + m ∧
      tokensInFront sc (line.length + 1 + a.length) = back.take m := by
  let lowered := front.map (Token.moved (line.length + 1) 1)
  have htokens : sc.tokens = ([r, nl] ++ lowered) ++ back := htokens
  have hcount : ([r, nl] ++ lowered).length = front.length + 2 := by
    simp only [lowered, List.length_append, List.length_map, List.length_cons, List.length_nil]
    omega
  have habove : ∀ t ∈ [r, nl] ++ lowered, t.start.offset < line.length + 1 + a.length := by
    intro t ht
    have hproper := h.proper
    have hinside := h.inside
    have hfeed := h.feed
    rcases List.mem_append.mp ht with ht | ht
    · rcases List.mem_cons.mp ht with rfl | ht
      · omega
      · rw [List.mem_singleton.mp ht]
        omega
    · have := h.between t ht
      omega
  have hlong : front.length + 2 ≤ i := by
    obtain ⟨j, param, hj, hparam, hbehind⟩ := hplace.inFront
    obtain rfl : i = j := Option.some.inj (hi.symm.trans hj)
    by_contra hshort
    rw [htokens, List.getElem?_append_left (by omega)] at hparam
    have := habove param (List.mem_of_getElem? hparam)
    omega
  obtain ⟨m, rfl⟩ := Nat.exists_eq_add_of_le hlong
  refine ⟨m, rfl, ?_⟩
  have htake : sc.tokens.take (front.length + 2 + m) = ([r, nl] ++ lowered) ++ back.take m := by
    rw [htokens, ← hcount, List.take_length_add_append]
  rw [tokensInFront, hi, Option.getD_some, htake, List.filter_append,
    List.filter_eq_nil_iff.mpr (by simpa using habove), List.nil_append, List.filter_eq_self]
  intro t ht
  exact decide_eq_true (h.below t (List.mem_of_mem_take ht))

/-- **A requirement line may stand anywhere in front of the parameter block.**  Moved from the
    top of the file to a line boundary further down, at any depth of brackets, it changes
    neither the body nor, but for their places and their order, the directives.  If other tokens
    than attributes, line ends and remarks stand between it and the block, the names of the
    aliases are the same; else they are those of the attributes behind it. -/
theorem extract_requirementLine {known : KnownAliases} {filename : Option Text}
    {name line a b : Text} {sc : Script} {e : EntryPoint} {ws : List Report}
    (hsource : ofSource filename (line ++ '\n' :: (a ++ b)) = .ok sc)
    (hextract : sc.extract known name = .ok (e, ws)) (hline : IsRequirementLine line)
    (hplace : LineBoundary sc (line.length + 1 + a.length)) :
    ∃ moved e' ws', ofSource filename (a ++ (line ++ '\n' :: b)) = .ok moved ∧
      moved.extract known name = .ok (e', ws') ∧ e'.body = e.body ∧
      (e'.directives.map Statement.unplaced).Perm (e.directives.map Statement.unplaced) ∧
      let between := (tokensInFront sc (line.length + 1 + a.length)).reverse
      ((¬ ∃ gs, AttributeBlock between gs []) →
        e'.aliases.map AliasDeclaration.name = e.aliases.map AliasDeclaration.name) ∧
      ∀ gs, AttributeBlock between gs [] → ∃ ass, gs.reverse.mapM sc.groupAliases = .ok ass ∧
        e'.aliases.map AliasDeclaration.name = ass.flatten.map AliasDeclaration.name := by
  obtain ⟨s, hscan, rfl⟩ := ofSource_eq_ok hsource
  obtain ⟨i, ds, as, hi, hds, haliases, rfl, -⟩ := extract_iff.mp hextract
  obtain ⟨r, nl, front, back, s', h, htokens, hscan', htokens'⟩ :=
    exists_lineMoved hline hscan hplace.newline
  let sc : Script := ⟨filename, line ++ '\n' :: (a ++ b), s.tokens, s.stop⟩
  let whole : Script := ⟨filename, a ++ (line ++ '\n' :: b), s'.tokens, s'.stop⟩
  have hwhole : ofSource filename (a ++ (line ++ '\n' :: b)) = .ok whole := by
    rw [ofSource, scanFile_eq_ok.mpr hscan']
    rfl
  obtain ⟨m, rfl, hbetween⟩ := h.exists_between htokens hplace hi
  have h' : DirectiveLine (r.moved a.length (a.count '\n')) (nl.moved a.length (a.count '\n')) :=
    ⟨h.isLine.requirement, h.isLine.newline⟩
  have hi' : paramIndex? whole.tokens = some (front.length + 2 + m) := by
    change paramIndex? s'.tokens = _
    rw [htokens']
    apply paramIndex?_moved h.isLine h' (fun t => rfl) (f := Token.moved (line.length + 1) 1)
    · rw [← htokens]
      exact hi
    · omega
  have hds' : sc.directives (front.length + 2 + m) (r :: nl ::
      (front.map (Token.moved (line.length + 1) 1) ++ back)) = .ok ds := by
    rw [← htokens]
    exact hds
  obtain ⟨es, hes', hmoved⟩ := h.directives sc whole rfl rfl rfl hds'
  obtain ⟨bs, hbs, hsame, hhidden⟩ :=
    h.aliases h' sc whole htokens htokens' haliases
  have hes : whole.directives (front.length + 2 + m) whole.tokens = .ok es := by
    change whole.directives _ s'.tokens = _
    rw [htokens']
    exact hes'
  refine ⟨whole, _, _, hwhole, extract_iff.mpr ⟨_, es, bs, hi', hes, hbs, rfl, rfl⟩, ?_, ?_, ?_⟩
  · have hkept := hmoved.withoutDirectives (b := b) hline.noFeed h.rows
      (directives_liesIn hscan hds) (directives_liesIn hscan' hes)
    exact congrArg (fun t => Text.trimEnd (dropBlankLines t)) hkept
  · rw [List.map_map, List.map_map]
    exact hmoved.perm
  · rw [hbetween]
    exact ⟨hsame, hhidden⟩

/-- Between two attributes the line leaves the aliases of the one behind it. -/
theorem extract_requirementLine_between :
    let line := "#Requires -Version 5.1".toList
    let a := "[CmdletBinding()]\n".toList
    let b := "[Alias('x')] # kept\nparam()".toList
    ∃ sc e ws moved e' ws', ofSource none (line ++ '\n' :: (a ++ b)) = .ok sc ∧
      sc.extract Table.empty "Get-Foo".toList = .ok (e, ws) ∧
      ofSource none (a ++ (line ++ '\n' :: b)) = .ok moved ∧
      moved.extract Table.empty "Get-Foo".toList = .ok (e', ws') ∧ e'.body = e.body ∧
      (e'.directives.map Statement.unplaced).Perm (e.directives.map Statement.unplaced) ∧
      e'.aliases.map AliasDeclaration.name = ["x".toList] := by
  intro line a b
  have hline : IsRequirementLine line := by
    refine ⟨by decide +kernel, ?_⟩
    have hrun : ((scan line).toOption.any fun s => s.tokens.length = 1 ∧
        ∀ r ∈ s.tokens, r.isRequirement = true) = true := by
      decide +kernel
    obtain ⟨s, hscan, hrun⟩ := toOption_any.mp hrun
    obtain ⟨hlength, hrequirement⟩ := of_decide_eq_true hrun
    obtain ⟨r, htokens⟩ := List.length_eq_one_iff.mp hlength
    exact ⟨s, r, hscan, htokens, hrequirement r (by simp [htokens])⟩
  have hrun : ((ofSource none (line ++ '\n' :: (a ++ b))).toOption.any fun sc =>
      (sc.extract Table.empty "Get-Foo".toList).toOption.any fun _ =>
        (sc.tokens.any fun t => t.kind = .newline ∧ t.stop.offset = 41) &&
        ((paramIndex? sc.tokens).any fun i => sc.tokens[i]?.any fun t => 41 ≤ t.start.offset) &&
        ((tokensInFront sc 41).reverse[0]?.any fun nl => nl.kind = .newline) &&
        ((tokensInFront sc 41).reverse[1]?.any Token.isRemark) &&
        (tokensInFront sc 41).reverse[2]?.any fun close => close.kind = .rightBracket &&
          (groupStart? 0 ((tokensInFront sc 41).reverse.drop 3)).any fun g => g.2 = [] &&
            (sc.groupAliases (close :: g.1).reverse).toOption.any fun as =>
              as.map AliasDeclaration.name = ["x".toList]) = true := by
    decide +kernel
  obtain ⟨sc, hsource, hrun⟩ := toOption_any.mp hrun
  obtain ⟨⟨e, ws⟩, hextract, hrun⟩ := toOption_any.mp hrun
  obtain ⟨hrun, hbetween⟩ := (Bool.and_eq_true _ _).mp hrun
  obtain ⟨hrun, hremark⟩ := (Bool.and_eq_true _ _).mp hrun
  obtain ⟨hrun, hnl⟩ := (Bool.and_eq_true _ _).mp hrun
  obtain ⟨hfeed, hparam⟩ := (Bool.and_eq_true _ _).mp hrun
  have hplace : LineBoundary sc (line.length + 1 + a.length) := by
    obtain ⟨t, ht, hfeed⟩ := List.any_eq_true.mp hfeed
    obtain ⟨i, hi, hparam⟩ := (Option.any_eq_true _ _).mp hparam
    obtain ⟨p, hp, hparam⟩ := (Option.any_eq_true _ _).mp hparam
    exact ⟨⟨t, ht, of_decide_eq_true hfeed⟩, ⟨i, p, hi, hp, of_decide_eq_true hparam⟩⟩
  obtain ⟨moved, e', ws', hmoved, hextract', hbody, hperm, -, haliases⟩ :=
    extract_requirementLine hsource hextract hline hplace
  refine ⟨sc, e, ws, moved, e', ws', hsource, hextract, hmoved, hextract', hbody, hperm, ?_⟩
  rcases htokens : (tokensInFront sc 41).reverse with _ | ⟨nl, _ | ⟨remark, _ | ⟨close, rest⟩⟩⟩
  all_goals rw [htokens] at hnl hremark hbetween
  · cases hnl
  · cases hremark
  · cases hbetween
  · obtain ⟨hclose, hgroup⟩ := (Bool.and_eq_true _ _).mp hbetween
    have hnl : nl.kind = .newline := of_decide_eq_true hnl
    have hremark : remark.isRemark = true := hremark
    have hclose : close.kind = .rightBracket := of_decide_eq_true hclose
    obtain ⟨⟨g, front⟩, hstart, hgroup⟩ := (Option.any_eq_true _ _).mp hgroup
    obtain ⟨hfront, hgroup⟩ := (Bool.and_eq_true _ _).mp hgroup
    obtain ⟨as, has, hnames⟩ := toOption_any.mp hgroup
    obtain rfl : front = [] := of_decide_eq_true hfront
    have hblock : AttributeBlock (tokensInFront sc (line.length + 1 + a.length)).reverse
        [(close :: g).reverse] [] := by
      rw [show line.length + 1 + a.length = 41 from rfl, htokens]
      exact .blank (by simp [hnl]) (.blank (by simp [hremark]) (.group hclose hstart .done))
    obtain ⟨ass, hass, hsame⟩ := haliases _ hblock
    have hone : [(close :: g).reverse].reverse.mapM sc.groupAliases = .ok [as] := by
      rw [List.reverse_singleton, List.mapM_cons, has]
      rfl
    obtain rfl : ass = [as] := by
      rw [hone] at hass
      cases hass
      rfl
    rw [hsame]
    simpa using of_decide_eq_true hnames

/-- Behind an attribute that declares an alias, the line hides it. -/
theorem extract_requirementLine_hides :
    let line := "#Requires -Version 5.1".toList
    let a := "[Alias('x')]\n".toList
    let b := "param()".toList
    ∃ sc e ws moved e' ws', ofSource none (line ++ '\n' :: (a ++ b)) = .ok sc ∧
      sc.extract Table.empty "Get-Foo".toList = .ok (e, ws) ∧
      ofSource none (a ++ (line ++ '\n' :: b)) = .ok moved ∧
      moved.extract Table.empty "Get-Foo".toList = .ok (e', ws') ∧
      e.aliases.map AliasDeclaration.name = ["x".toList] ∧ e'.aliases = [] := by
  intro line a b
  have hbefore : ((ofSource none (line ++ '\n' :: (a ++ b))).toOption.any fun sc =>
      (sc.extract Table.empty "Get-Foo".toList).toOption.any fun r =>
        r.1.aliases.map AliasDeclaration.name = ["x".toList]) = true := by
    decide +kernel
  have hafter : ((ofSource none (a ++ (line ++ '\n' :: b))).toOption.any fun sc =>
      (sc.extract Table.empty "Get-Foo".toList).toOption.any fun r => r.1.aliases = []) = true := by
    decide +kernel
  obtain ⟨sc, hsource, hbefore⟩ := toOption_any.mp hbefore
  obtain ⟨⟨e, ws⟩, hextract, hbefore⟩ := toOption_any.mp hbefore
  obtain ⟨moved, hmoved, hafter⟩ := toOption_any.mp hafter
  obtain ⟨⟨e', ws'⟩, hextract', hafter⟩ := toOption_any.mp hafter
  exact ⟨sc, e, ws, moved, e', ws', hsource, hextract, hmoved, hextract',
    of_decide_eq_true hbefore, of_decide_eq_true hafter⟩

end Script
end ScriptModule
