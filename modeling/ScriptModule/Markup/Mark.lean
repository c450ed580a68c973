/-
  ScriptModule/Markup/Mark.lean
  =============================
  **The marks in front of the root element.**  Outside of elements a document is a
  row of comments, names, literals and signs, with white space between them that
  means nothing.  The row ends where the root element starts, or at a mistake; the
  end of the text is a mistake there.
-/
import ScriptModule.Markup.Content
import ScriptModule.Markup.Tally

namespace ScriptModule.Markup

/-! ### Marks -/

/-- What stands outside of elements. -/
inductive Mark where
  | remark                              -- a comment or an instruction
  | declaration (body : Text)           -- the declaration of the document
  | opening (word : Text)               -- the start of a declaration in a document type
  | name (t : Text)
  | qualified (t : Text)                -- a name with a prefix
  | token (t : Text)                    -- like a name, but with another start
  | repeated                            -- a name with a sign of repetition
  | keyword (t : Text)                  -- a name behind a number sign
  | literal (body : Text) (isWhole : Bool)
  | percent
  | parameter (name : Text)
  | comma
  | bar
  | openBracket
  | closeBracket
  | openParen
  | closeParen (sign : Option Char)     -- with a sign of repetition, or without
  | close
  | conditional
  | root                                -- the root element starts
  | fault (c : Cause)
deriving DecidableEq, Repr

/-- A mark, the text that starts with it, and the text behind it. -/
structure MarkAt where
  mark : Mark
  here : Text
  after : Text
deriving DecidableEq, Repr

/-- A mark at the very end of a text that might go on takes in a byte that is left over
    there.  Then a name is no word that is looked for, and a literal is not whole. -/
def Mark.withByte? : Mark → Option Mark
  | .name t => some (.name (t ++ [torn]))
  | .qualified t => some (.qualified (t ++ [torn]))
  | .token t => some (.token (t ++ [torn]))
  | .keyword t => some (.keyword (t ++ [torn]))
  | .literal b _ => some (.literal b false)
  | .closeBracket => some .closeBracket
  | .closeParen none => some (.closeParen none)
  | _ => none

/-! ### Reading a mark -/

/-- Whether a character may stand behind a literal. -/
def mayFollowLiteral (c : Char) : Bool := isBlank c || c = '>' || c = '%' || c = '['

/-- Whether a character may stand behind a name. -/
def mayFollowName (c : Char) : Bool :=
  isBlank c || c = '>' || c = ')' || c = ',' || c = '|' || c = '[' || c = '%'

/-- Whether a character may stand behind a keyword. -/
def mayFollowKeyword (c : Char) : Bool :=
  isBlank c || c = ')' || c = '>' || c = '%' || c = '|'

/-- Whether a character may stand behind a closing parenthesis without a sign. -/
def mayFollowParen (c : Char) : Bool :=
  isBlank c || c = '>' || c = ',' || c = '|' || c = ')'

def isRepetition (c : Char) : Bool := c = '?' || c = '*' || c = '+'

/-- Accepts a mark if the character behind it fits; the end of the text always does. -/
def followedBy (p : Char → Bool) (m : Mark) (r : Text) : Scanned Mark :=
  if r.head?.all p then .ok (m, r) else refuse r

def literalBody (quote : Char) : Text → Scanned Text
  | [] => .error .cut
  | c :: r =>
    if c = quote then .ok ([], r)
    else if isAllowed c then (literalBody quote r).map fun (b, rest) => (c :: b, rest)
    else refuseWhole (c :: r)

def openingWord (w : Width) (t : Text) : Scanned Mark :=
  let word := t.takeWhile (isPlainLetter w)
  let r := t.dropWhile (isPlainLetter w)
  if word.isEmpty then refuse r
  else match r with
    | [] => .error .cut
    | ['%'] => .error .cut
    | '%' :: c :: u =>
      if isBlank c || c = '%' then refuse ('%' :: c :: u) else .ok (.opening word, r)
    | c :: u => if isBlank c then .ok (.opening word, r) else refuse (c :: u)

/-- What a run of name characters and colons is; `atEnd` says that no text follows. -/
def nameMark (w : Width) (t : Text) (atEnd : Bool) : Except Stop Mark :=
  if !(t.head?.any (isNameStart w)) then .ok (.token t)
  else match Text.cut? ':' t with
    | none => .ok (.name t)
    | some (_, []) => if atEnd then .error .cut else .ok (.token t)
    | some (_, l) => .ok (if l.contains ':' then .token t else .qualified t)

def nameLike (w : Width) (t : Text) : Scanned Mark :=
  let inName := fun (c : Char) => isNameChar w c || c = ':'
  let r := t.dropWhile inName
  if isTorn r then .error .torn
  else match nameMark w (t.takeWhile inName) r.isEmpty with
  | .error e => .error e
  | .ok m =>
    match m, r with
    | .token _, r => followedBy mayFollowName m r
    | m, c :: u =>
      if isRepetition c then .ok (.repeated, u) else followedBy mayFollowName m (c :: u)
    | m, [] => .ok (m, [])

/-- Reads what stands behind an angle bracket outside of elements. -/
def angleMark (w : Width) : Text → Scanned Mark
  | '!' :: '-' :: r => (skipComment r).map fun rest => (.remark, rest)
  | '!' :: '[' :: r => .ok (.conditional, r)
  | '!' :: r => openingWord w r
  | '?' :: r =>
    (instruction w r).map fun (b, rest) => ((b.map Mark.declaration).getD .remark, rest)
  | [] => .error .cut
  | c :: r => if mayStartElement w c then .ok (.root, r) else refuse (c :: r)

def sign? (c : Char) : Option Mark :=
  if c = ',' then some .comma
  else if c = '|' then some .bar
  else if c = '[' then some .openBracket
  else if c = '(' then some .openParen
  else if c = '>' then some .close
  else none

def bracketMark : Text → Scanned Mark
  | [']'] => .error .cut
  | ']' :: '>' :: r => .ok (.conditional, r)
  | r => .ok (.closeBracket, r)

/-- Reads what stands behind a closing parenthesis. -/
def parenMark : Text → Scanned Mark
  | [] => .ok (.closeParen none, [])
  | c :: r =>
    if isRepetition c then .ok (.closeParen (some c), r)
    else followedBy mayFollowParen (.closeParen none) (c :: r)

def literalMark (quote : Char) (t : Text) : Scanned Mark :=
  match literalBody quote t with
  | .error e => .error e
  | .ok (b, r) => followedBy mayFollowLiteral (.literal b true) r

def keywordMark (w : Width) (t : Text) : Scanned Mark :=
  match name w t with
  | .error e => .error e
  | .ok (n, r) => followedBy mayFollowKeyword (.keyword n) r

/-- Reads what stands behind a percent sign. -/
def percentMark (w : Width) (t : Text) : Scanned Mark :=
  (parameter w t).map fun (n, r) => ((n.map Mark.parameter).getD .percent, r)

/-- Reads the mark that starts with the character `c`. -/
def readMark (w : Width) (c : Char) (r : Text) : Scanned Mark :=
  match sign? c with
  | some m => .ok (m, r)
  | none =>
    if c = '<' then angleMark w r
    else if c = '"' || c = '\'' then literalMark c r
    else if c = '%' then percentMark w r
    else if c = ']' then bracketMark r
    else if c = ')' then parenMark r
    else if c = '#' then keywordMark w r
    else if isNameChar w c || c = ':' then nameLike w (c :: r)
    else refuseWhole (c :: r)

/-! ### Less text is left -/

theorem followedBy_length {p : Char → Bool} {m n : Mark} {t r : Text}
    (h : followedBy p m t = .ok (n, r)) : r.length ≤ t.length := by
  unfold followedBy at h
  split at h
  · cases h; exact Nat.le_refl _
  · exact absurd h (refuse_ne_ok _ _)

theorem literalBody_length {q : Char} {t b r : Text} (h : literalBody q t = .ok (b, r)) :
    r.length ≤ t.length := by
  induction t generalizing b with
  | nil => simp [literalBody] at h
  | cons c t ih =>
    rw [literalBody] at h
    simp only [List.length_cons]
    split at h
    · cases h; omega
    · split at h
      · obtain ⟨u, hu, he⟩ := map_eq_ok h
        have := ih (b := u.1) (by rw [hu]; cases he; rfl)
        omega
      · exact absurd h (refuseWhole_ne_ok _ _)

theorem openingWord_length {w : Width} {t r : Text} {m : Mark}
    (h : openingWord w t = .ok (m, r)) : r.length ≤ t.length := by
  have hl := dropWhile_length_le (isPlainLetter w) t
  unfold openingWord at h
  simp only at h
  split at h
  · exact absurd h (refuse_ne_ok _ _)
  · split at h
    · simp at h
    · simp at h
    · split at h
      · exact absurd h (refuse_ne_ok _ _)
      · cases h; exact hl
    · split at h
      · cases h; exact hl
      · exact absurd h (refuse_ne_ok _ _)

theorem angleMark_length {w : Width} {t r : Text} {m : Mark}
    (h : angleMark w t = .ok (m, r)) : r.length ≤ t.length := by
  unfold angleMark at h
  split at h
  · obtain ⟨u, hu, he⟩ := map_eq_ok h
    have := skipComment_length hu
    cases he
    simp only [List.length_cons]
    omega
  · cases h; simp only [List.length_cons]; omega
  · have := openingWord_length h
    simp only [List.length_cons]
    omega
  · obtain ⟨u, hu, he⟩ := map_eq_ok h
    have := instruction_length (v := u.1) (r := u.2) hu
    cases he
    simp only [List.length_cons]
    omega
  · simp at h
  · split at h
    · cases h; exact Nat.le_succ _
    · exact absurd h (refuse_ne_ok _ _)

theorem bracketMark_length {t r : Text} {m : Mark} (h : bracketMark t = .ok (m, r)) :
    r.length ≤ t.length := by
  unfold bracketMark at h
  split at h
  · simp at h
  · cases h; simp only [List.length_cons]; omega
  · cases h; exact Nat.le_refl _

theorem parenMark_length {t r : Text} {m : Mark} (h : parenMark t = .ok (m, r)) :
    r.length ≤ t.length := by
  unfold parenMark at h
  split at h
  · cases h; exact Nat.le_refl _
  · split at h
    · cases h; exact Nat.le_succ _
    · exact followedBy_length h

theorem literalMark_length {q : Char} {t r : Text} {m : Mark}
    (h : literalMark q t = .ok (m, r)) : r.length ≤ t.length := by
  unfold literalMark at h
  split at h
  · simp at h
  · next hb => exact Nat.le_trans (followedBy_length h) (literalBody_length hb)

theorem keywordMark_length {w : Width} {t r : Text} {m : Mark}
    (h : keywordMark w t = .ok (m, r)) : r.length ≤ t.length := by
  unfold keywordMark at h
  split at h
  · simp at h
  · next hn => exact Nat.le_trans (followedBy_length h) (Nat.le_of_lt (name_length hn))

theorem percentMark_length {w : Width} {t r : Text} {m : Mark}
    (h : percentMark w t = .ok (m, r)) : r.length ≤ t.length := by
  obtain ⟨u, hu, he⟩ := map_eq_ok h
  have := parameter_length (v := u.1) (r := u.2) hu
  cases he
  exact this

/-- A name starts with the character that was looked at, so the text behind it is at
    most what stood behind the character. -/
theorem nameLike_cons_length {w : Width} {c : Char} {t r : Text} {m : Mark}
    (hc : isNameChar w c || c = ':') (h : nameLike w (c :: t) = .ok (m, r)) :
    r.length ≤ t.length := by
  have hd : (c :: t).dropWhile (fun d => isNameChar w d || d = ':') =
      t.dropWhile (fun d => isNameChar w d || d = ':') := by
    rw [List.dropWhile_cons, if_pos hc]
  have hl := dropWhile_length_le (fun d => isNameChar w d || d = ':') t
  unfold nameLike at h
  simp only [hd] at h
  split at h
  · simp at h
  split at h
  · simp at h
  · split at h
    · exact Nat.le_trans (followedBy_length h) hl
    · next hr _ =>
      rw [hr] at hl
      split at h
      · cases h; simp only [List.length_cons] at hl; omega
      · exact Nat.le_trans (followedBy_length h) hl
    · cases h; exact Nat.zero_le _

theorem readMark_length {w : Width} {c : Char} {t r : Text} {m : Mark}
    (h : readMark w c t = .ok (m, r)) : r.length ≤ t.length := by
  unfold readMark at h
  split at h
  · cases h; exact Nat.le_refl _
  · split at h
    · exact angleMark_length h
    split at h
    · exact literalMark_length h
    split at h
    · exact percentMark_length h
    split at h
    · exact bracketMark_length h
    split at h
    · exact parenMark_length h
    split at h
    · exact keywordMark_length h
    split at h
    · next hc => exact nameLike_cons_length hc h
    · exact absurd h (refuseWhole_ne_ok _ _)

/-! ### Rows of marks -/

/-- The marks of a text, up to the root element or to the first mistake. -/
def marks (w : Width) (isCut : Bool) (t : Text) : List MarkAt :=
  match _hs : skipBlank t with
  | [] => [⟨.fault (if isCut then .unclosedToken else .noElement), [], []⟩]
  | c :: r =>
    match _h : readMark w c r with
    | .error e => let m := e.mistake (c :: r); [⟨.fault m.cause, m.here, []⟩]
    | .ok (.root, rest) => [⟨.root, c :: r, rest⟩]
    | .ok (m, rest) =>
      match (if isCut && rest.isEmpty then m.withByte? else none) with
      | some m => [⟨m, c :: r, []⟩, ⟨.fault .noElement, [], []⟩]
      | none => ⟨m, c :: r, rest⟩ :: marks w isCut rest
termination_by t.length
decreasing_by
  have h1 := readMark_length _h
  have h2 := skipBlank_length_le t
  rw [_hs] at h2
  simp only [List.length_cons] at h2
  omega

/-- The marks up to the first that makes too much be read.  `tally` is what will have
    been read at the end of the text; white space, which starts with `left`, counts as
    well as marks do. -/
def limited (w : Width) (tally : Tally) (left : Text) : List MarkAt → List MarkAt
  | [] => []
  | m :: ms =>
    let isExcessive := fun (t : Text) =>
      Tally.activation ≤ tally.total &&
        { tally with direct := tally.direct - w.size t }.isExcessive
    match m.mark with
    | .fault _ | .root => if isExcessive m.here then [⟨.fault .amplification, left, []⟩] else [m]
    | _ =>
      if isExcessive m.here then [⟨.fault .amplification, left, []⟩]
      else if isExcessive m.after then [⟨.fault .amplification, m.here, []⟩]
      else m :: limited w tally m.after ms

theorem limited_length_le (w : Width) (tally : Tally) (left : Text) (ms : List MarkAt) :
    (limited w tally left ms).length ≤ ms.length := by
  induction ms generalizing left with
  | nil => exact Nat.le_refl _
  | cons m ms ih =>
    have := ih m.after
    unfold limited
    simp only
    split <;> split <;> (try split) <;> simp only [List.length_cons, List.length_nil] <;> omega

end ScriptModule.Markup
