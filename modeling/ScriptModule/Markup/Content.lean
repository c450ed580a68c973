/-
  ScriptModule/Markup/Content.lean
  ================================
  **The pieces of content.**  Between the tags of an element stand text, references,
  comments, instructions, and sections that are text whatever is in them.  The text
  of a document or of an entity is a row of pieces, up to its end or to the first
  mistake.
-/
import ScriptModule.Markup.Lexeme
import ScriptModule.Outcome

namespace ScriptModule.Markup

/-! ### Tags -/

/-- Reads the attributes of a tag and its end, behind its name or behind a value. -/
def tagRest (w : Width) (t : Text) : Scanned (List Attribute × Bool) :=
  match skipBlank t with
  | '>' :: r => .ok (([], false), r)
  | '/' :: r => (expect '>' r).map fun r => (([], true), r)
  | _ =>
    if t.head?.all isBlank then
      match _h : Attribute.read w (skipBlank t) with
      | .error e => .error e
      | .ok (a, r) => (tagRest w r).map fun ((as, e), r) => ((a :: as, e), r)
    else refuse t
termination_by t.length
decreasing_by exact Nat.lt_of_lt_of_le (Attribute.read_length _h) (skipBlank_length_le t)

/-- Reads a start tag behind its first character. -/
def Tag.read (w : Width) (t : Text) : Scanned Tag :=
  match qualifiedName w t with
  | .error e => .error e
  | .ok (n, r) => (tagRest w r).map fun ((as, e), r) => (⟨n, as, e⟩, r)

/-- Reads the name in an end tag, and the end of the tag. -/
def endTag (w : Width) (t : Text) : Scanned Text :=
  match t with
  | [] => .error .cut
  | c :: r =>
    if isNameStart w c then
      let inName := fun (d : Char) => isNameChar w d || d = ':'
      let behind := r.dropWhile inName
      if isTorn behind then .error .torn
      else (expect '>' (skipBlank behind)).map fun rest => (c :: r.takeWhile inName, rest)
    else refuseWhole (c :: r)

/-! ### Comments and instructions -/

def commentEnd : Text → Except Stop Text
  | [] => .error .cut
  | '-' :: '-' :: r => expect '>' r
  | c :: r => if isAllowed c then commentEnd r else refuseWhole (c :: r)

/-- The text behind a comment whose first dash has been read. -/
def skipComment (t : Text) : Except Stop Text :=
  match expect '-' t with
  | .error e => .error e
  | .ok r => commentEnd r

/-- Reads what an instruction says, up to its end. -/
def instructionBody : Text → Scanned Text
  | [] => .error .cut
  | '?' :: '>' :: r => .ok ([], r)
  | c :: r =>
    if isAllowed c then (instructionBody r).map fun (b, rest) => (c :: b, rest)
    else refuseWhole (c :: r)

/-- The target of the declaration of a document. -/
def declarationTarget : Text := "xml"

/-- Reads an instruction; what the declaration of a document says is given back.  No
    other spelling of its target may be used. -/
def instruction (w : Width) (t : Text) : Scanned (Option Text) :=
  match name w t with
  | .error e => .error e
  | .ok (target, r) =>
    let isDeclaration := target = declarationTarget
    if !(r.head?.any fun c => isBlank c || c = '?') then refuse r
    else if !isDeclaration && target.map Char.toLower = declarationTarget then refuse r
    else match r with
      | '?' :: '>' :: r => .ok (if isDeclaration then some [] else none, r)
      | '?' :: r => refuse r
      | r => (instructionBody r).map fun (b, rest) =>
          (if isDeclaration then some b else none, rest)

/-! ### Sections -/

/-- The text behind the word that opens a section. -/
def expectAll : Text → Text → Except Stop Text
  | [], t => .ok t
  | c :: cs, t =>
    match expect c t with
    | .error e => .error e
    | .ok r => expectAll cs r

/-- The word that opens a section, behind its first bracket. -/
def sectionWord : Text := "CDATA["

/-- The text behind the opening of a section; a text with fewer units than the opening
    is cut off. -/
def sectionStart (w : Width) (t : Text) : Except Stop Text :=
  if w.size (t.take sectionWord.length) < w.unit * sectionWord.length then .error .cut
  else expectAll sectionWord t

/-! ### Tokens -/

/-- The text up to the end of the first place where a word stands. -/
def upTo (word : Text) : Text → Text
  | [] => []
  | c :: r => if word.isPrefixOf (c :: r) then word else c :: upTo word r

/-- The text of a tag behind its first character, up to the end that does not stand in a
    value; `quote` is what ends the value that has been entered. -/
def tagText (quote : Option Char) : Text → Text
  | [] => []
  | c :: r =>
    match quote with
    | some q => c :: tagText (if c = q then none else quote) r
    | none =>
      if c = '>' then [c]
      else c :: tagText (if c = '"' || c = '\'' then some c else none) r

/-- The text of the reference, tag, comment, instruction or opening of a section that a
    text starts with. -/
def tokenText : Text → Text
  | '&' :: r => '&' :: upTo [';'] r
  | '<' :: '!' :: '-' :: '-' :: r => "<!--" ++ upTo "-->" r
  | '<' :: '!' :: '[' :: _ => "<![" ++ sectionWord
  | '<' :: '?' :: r => "<?" ++ upTo "?>" r
  | '<' :: r => '<' :: tagText none r
  | _ => []

/-! ### Pieces -/

/-- What content is made of. -/
inductive Piece where
  | start (tag : Tag)
  | stop (name : Text) (here : Text)     -- an end tag, and where its name stands
  | data (t : Text)
  | entity (name : Text)
  | remark                               -- a comment or an instruction
  | sectionStart
  | sectionEnd
  | finish                               -- the text is at its end
  | fault (c : Cause)
deriving DecidableEq, Repr

/-- A piece, the text that starts with it, the text behind it, and how many bytes it counts
    for; what is no token counts for none. -/
structure Lexeme where
  piece : Piece
  here : Text
  rest : Text
  size : Nat
deriving DecidableEq, Repr

/-- Reads a piece of markup behind its angle bracket; `here` starts with the bracket. -/
def readMarkup (w : Width) (here : Text) : Text → Except Mistake (Piece × Text)
  | '!' :: '-' :: r =>
    ((skipComment r).map fun rest => (Piece.remark, rest)).mapError (Stop.mistake here)
  | '!' :: '[' :: r =>
    ((sectionStart w r).map fun rest => (Piece.sectionStart, rest)).mapError (Stop.mistake here)
  | '!' :: r => (refuse r).mapError (Stop.mistake here)
  | '?' :: r =>
    ((instruction w r).map fun (b, rest) =>
      (if b.isSome then Piece.fault .misplacedDeclaration else Piece.remark, rest)).mapError
        (Stop.mistake here)
  | '/' :: r =>
    ((endTag w r).map fun (n, rest) => (Piece.stop n r, rest)).mapError (Stop.mistake here)
  | r => ((Tag.read w r).map fun (t, rest) => (Piece.start t, rest)).mapError (Stop.mistake here)

def Reference.piece : Reference → Piece
  | .entity n => .entity n
  | .character none => .fault .badCharacterNumber
  | .character (some c) => .data [c]

/-- Whether characters that are text end in front of a character. -/
def endsData (c : Char) : Bool := c = '<' || c = '&' || c = '\r' || c = '\n' || !isAllowed c

/-- Reads characters that are text.  Brackets at the very end may be the start of what
    must not stand there, so they are left. -/
def dataRun : Text → Except Mistake (Text × Text)
  | [] => .ok ([], [])
  | [']'] => .ok ([], [']'])
  | [']', ']'] => .ok ([], [']', ']'])
  | ']' :: ']' :: '>' :: r => .error ⟨.invalidToken, '>' :: r⟩
  | c :: r =>
    if endsData c then .ok ([], c :: r)
    else (dataRun r).map fun (b, rest) => (c :: b, rest)

/-- The line break that starts with the character `c`, as a piece. -/
def lineBreak (w : Width) (c : Char) (r : Text) : Piece × Text × Nat :=
  if c = '\r' && r.head? = some '\n' then (.data ['\n'], r.drop 1, 2 * w.unit)
  else (.data ['\n'], r, w.unit)

/-- The next piece of content, which starts with the character `c`, the text behind it
    and what it counts for. -/
def readPiece (w : Width) (c : Char) (r : Text) : Except Mistake (Piece × Text × Nat) :=
  if c = '<' then
    (readMarkup w (c :: r) r).map fun (p, rest) => (p, rest, w.size (tokenText (c :: r)))
  else if c = '&' then
    ((Reference.read w r).map fun (v, rest) =>
      (v.piece, rest, w.size (tokenText (c :: r)))).mapError (Stop.mistake (c :: r))
  else if c = '\r' || c = '\n' then .ok (lineBreak w c r)
  else if !isAllowed c then (refuseWhole (c :: r)).mapError (Stop.mistake (c :: r))
  else match c, r with
    | ']', ']' :: '>' :: r => .error ⟨.invalidToken, '>' :: r⟩
    | c, r => (dataRun r).map fun (b, rest) => (.data (c :: b), rest, w.size (c :: b))

/-- Whether the characters of a section that are one piece end in front of a character. -/
def endsRun (c : Char) : Bool := c = ']' || c = '\r' || c = '\n' || !isAllowed c

/-- The next piece of a section, which starts with the character `c`. -/
def readSection (w : Width) (c : Char) (r : Text) : Except Mistake (Piece × Text × Nat) :=
  match c, r with
  | ']', ']' :: '>' :: r => .ok (.sectionEnd, r, 3 * w.unit)
  | ']', [] => .error ⟨.unclosedSection, [']']⟩
  | ']', [']'] => .error ⟨.unclosedSection, [']', ']']⟩
  | '\r', [] => .error ⟨.unclosedSection, ['\r']⟩
  | c, r =>
    if c = '\r' || c = '\n' then .ok (lineBreak w c r)
    else if !isAllowed c then (refuseWhole (c :: r)).mapError (Stop.mistake (c :: r))
    else
      let run := c :: r.takeWhile fun d => !endsRun d
      .ok (.data run, r.dropWhile (fun d => !endsRun d), w.size run)

/-! ### Less text is left -/

theorem tagRest_length {w : Width} {t r : Text} {v : List Attribute × Bool}
    (h : tagRest w t = .ok (v, r)) : r.length ≤ t.length := by
  fun_induction tagRest w t generalizing v with
  | case1 t r' hs =>
    have := skipBlank_length_le t
    cases h
    simp only [hs, List.length_cons] at this
    omega
  | case2 t r' hs =>
    have := skipBlank_length_le t
    obtain ⟨u, hu, he⟩ := map_eq_ok h
    have := expect_length hu
    cases he
    simp only [hs, List.length_cons] at *
    omega
  | case3 => simp at h
  | case4 t _ a r' hr _ _ ih =>
    obtain ⟨u, hu, he⟩ := map_eq_ok h
    have h1 := Attribute.read_length hr
    have h2 := skipBlank_length_le t
    have h3 := ih (v := u.1) (by rw [hu]; cases he; rfl)
    omega
  | case5 => exact absurd h (refuse_ne_ok _ _)

theorem Tag.read_length {w : Width} {t r : Text} {v : Tag} (h : Tag.read w t = .ok (v, r)) :
    r.length ≤ t.length := by
  unfold Tag.read at h
  split at h
  · simp at h
  · next hn =>
    obtain ⟨u, hu, he⟩ := map_eq_ok h
    have h1 := qualifiedName_length hn
    have h2 := tagRest_length (v := u.1) (r := u.2) hu
    cases he
    omega

theorem endTag_length {w : Width} {t n r : Text} (h : endTag w t = .ok (n, r)) :
    r.length ≤ t.length := by
  unfold endTag at h
  split at h
  · simp at h
  · next c u =>
    simp only at h
    split at h
    · split at h
      · simp at h
      · obtain ⟨v, hv, he⟩ := map_eq_ok h
        have h1 := expect_length hv
        have h2 := skipBlank_length_le (u.dropWhile fun d => isNameChar w d || d = ':')
        have h3 := dropWhile_length_le (fun d => isNameChar w d || d = ':') u
        cases he
        simp only [List.length_cons]
        omega
    · exact absurd h (refuseWhole_ne_ok _ _)

theorem commentEnd_length {t r : Text} (h : commentEnd t = .ok r) : r.length ≤ t.length := by
  fun_induction commentEnd t with
  | case1 => simp at h
  | case2 u => have := expect_length h; simp only [List.length_cons]; omega
  | case3 c u _ _ ih => have := ih h; simp only [List.length_cons]; omega
  | case4 => exact absurd h (refuseWhole_ne_ok _ _)

theorem skipComment_length {t r : Text} (h : skipComment t = .ok r) :
    r.length ≤ t.length := by
  unfold skipComment at h
  split at h
  · simp at h
  · next he => exact Nat.le_trans (commentEnd_length h) (Nat.le_of_lt (expect_length he))

theorem instructionBody_length {t b r : Text} (h : instructionBody t = .ok (b, r)) :
    r.length ≤ t.length := by
  fun_induction instructionBody t generalizing b with
  | case1 => simp at h
  | case2 u => cases h; simp only [List.length_cons]; omega
  | case3 c u _ _ ih =>
    obtain ⟨v, hv, he⟩ := map_eq_ok h
    have := ih (b := v.1) (by rw [hv]; cases he; rfl)
    simp only [List.length_cons]
    omega
  | case4 => exact absurd h (refuseWhole_ne_ok _ _)

theorem instruction_length {w : Width} {t r : Text} {v : Option Text}
    (h : instruction w t = .ok (v, r)) : r.length ≤ t.length := by
  unfold instruction at h
  split at h
  · simp at h
  · next hn =>
    have h1 := name_length hn
    simp only at h
    split at h
    · exact absurd h (refuse_ne_ok _ _)
    · split at h
      · exact absurd h (refuse_ne_ok _ _)
      · split at h
        · cases h; simp only [List.length_cons] at h1; omega
        · exact absurd h (refuse_ne_ok _ _)
        · obtain ⟨u, hu, he⟩ := map_eq_ok h
          have h2 := instructionBody_length (b := u.1) (r := u.2) hu
          cases he
          omega

theorem expectAll_length {cs t r : Text} (h : expectAll cs t = .ok r) :
    r.length ≤ t.length := by
  induction cs generalizing t with
  | nil => cases h; exact Nat.le_refl _
  | cons c cs ih =>
    rw [expectAll] at h
    split at h
    · simp at h
    · next he => exact Nat.le_trans (ih h) (Nat.le_of_lt (expect_length he))

theorem sectionStart_length {w : Width} {t r : Text} (h : sectionStart w t = .ok r) :
    r.length ≤ t.length := by
  unfold sectionStart at h
  split at h
  · simp at h
  · exact expectAll_length h

theorem readMarkup_length {w : Width} {here t r : Text} {p : Piece}
    (h : readMarkup w here t = .ok (p, r)) : r.length ≤ t.length := by
  unfold readMarkup at h
  split at h
  · obtain ⟨u, hu, he⟩ := map_eq_ok (mapError_eq_ok h)
    have := skipComment_length hu
    cases he
    simp only [List.length_cons]
    omega
  · obtain ⟨u, hu, he⟩ := map_eq_ok (mapError_eq_ok h)
    have := sectionStart_length hu
    cases he
    simp only [List.length_cons]
    omega
  · exact absurd (mapError_eq_ok h) (refuse_ne_ok _ _)
  · obtain ⟨u, hu, he⟩ := map_eq_ok (mapError_eq_ok h)
    have := instruction_length (v := u.1) (r := u.2) hu
    cases he
    simp only [List.length_cons]
    omega
  · obtain ⟨u, hu, he⟩ := map_eq_ok (mapError_eq_ok h)
    have := endTag_length (n := u.1) (r := u.2) hu
    cases he
    simp only [List.length_cons]
    omega
  · obtain ⟨u, hu, he⟩ := map_eq_ok (mapError_eq_ok h)
    have := Tag.read_length (v := u.1) (r := u.2) hu
    cases he
    omega

theorem dataRun_length {t b r : Text} (h : dataRun t = .ok (b, r)) : r.length ≤ t.length := by
  fun_induction dataRun t generalizing b with
  | case5 => cases h; exact Nat.le_refl _
  | case6 c u _ _ _ _ ih =>
    obtain ⟨v, hv, he⟩ := map_eq_ok h
    have := ih (b := v.1) (by rw [hv]; cases he; rfl)
    simp only [List.length_cons]
    omega
  | case4 => simp at h
  | _ => cases h; exact Nat.le_refl _

theorem lineBreak_length (w : Width) (c : Char) (t : Text) :
    (lineBreak w c t).2.1.length ≤ t.length := by
  unfold lineBreak
  split <;> simp

theorem readPiece_length {w : Width} {c : Char} {t r : Text} {p : Piece} {n : Nat}
    (h : readPiece w c t = .ok (p, r, n)) : r.length ≤ t.length := by
  unfold readPiece at h
  split at h
  · obtain ⟨u, hu, he⟩ := map_eq_ok h
    cases he
    exact readMarkup_length (p := u.1) (r := u.2) hu
  split at h
  · obtain ⟨u, hu, he⟩ := map_eq_ok (mapError_eq_ok h)
    have := Reference.read_length (v := u.1) (r := u.2) hu
    cases he
    omega
  split at h
  · have := lineBreak_length w c t
    rw [Except.ok.inj h] at this
    exact this
  split at h
  · exact absurd (mapError_eq_ok h) (refuseWhole_ne_ok _ _)
  split at h
  · simp at h
  · obtain ⟨u, hu, he⟩ := map_eq_ok h
    cases he
    exact dataRun_length (b := u.1) (r := u.2) hu

theorem readSection_length {w : Width} {c : Char} {t r : Text} {p : Piece} {n : Nat}
    (h : readSection w c t = .ok (p, r, n)) : r.length ≤ t.length := by
  unfold readSection at h
  split at h
  · cases h; simp only [List.length_cons]; omega
  · simp at h
  · simp at h
  · simp at h
  split at h
  · have := lineBreak_length w c t
    rw [Except.ok.inj h] at this
    exact this
  split at h
  · exact absurd (mapError_eq_ok h) (refuseWhole_ne_ok _ _)
  · cases h
    exact dropWhile_length_le _ _

/-! ### Rows of pieces -/

/-- The end of content.  A byte that is left over is a token that has not come to its
    end. -/
def contentEnd (isCut : Bool) (here : Text) : Lexeme :=
  ⟨if isCut then .fault .unclosedToken else .finish, here, [], 0⟩

/-- The pieces of a text, up to its end or to the first mistake; `inSection` says that a
    section has started.  A line break or brackets at the very end are read last of all,
    and no byte is looked for behind them. -/
def pieces (w : Width) (isCut inSection : Bool) (t : Text) : List Lexeme :=
  match t with
  | [] => [if inSection then ⟨.fault .unclosedSection, [], [], 0⟩ else contentEnd isCut []]
  | c :: r =>
    if !inSection && (c :: r = ['\r']) then
      [⟨.data ['\n'], c :: r, [], w.unit⟩, contentEnd false (c :: r)]
    else if !inSection && (c :: r = [']'] || c :: r = [']', ']']) then
      [⟨.data (c :: r), c :: r, [], w.size (c :: r)⟩, contentEnd false []]
    else
      match _h : (if inSection then readSection w c r else readPiece w c r) with
      | .error m => [⟨.fault m.cause, m.here, [], 0⟩]
      | .ok (p, rest, n) =>
        ⟨p, c :: r, rest, n⟩ ::
          pieces w isCut (p = .sectionStart || (inSection && p ≠ .sectionEnd)) rest
termination_by t.length
decreasing_by
  apply Nat.lt_succ_of_le
  split at _h
  · exact readSection_length _h
  · exact readPiece_length _h

end ScriptModule.Markup
