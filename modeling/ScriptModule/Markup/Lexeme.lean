/-
  ScriptModule/Markup/Lexeme.lean
  ===============================
  **Parts of markup.**  Names, references, quoted values, tags, comments and
  instructions.  A scan gives what it has read and the text behind it, or stops at
  a character that does not fit, or at the end of the text.  The lemmas say that
  less text is left behind each of them.
-/
import ScriptModule.Markup.Mistake
import ScriptModule.Markup.NameChar

namespace ScriptModule.Markup

/-! ### Scans -/

/-- Why a scan reads nothing. -/
inductive Stop where
  | bad (here : Text)      -- at a character that does not fit
  | cut                    -- at the end of the text
  | torn                   -- at half a character
deriving DecidableEq, Repr

/-- What was read and the text behind it. -/
abbrev Scanned (α : Type) := Except Stop (α × Text)

/-- Stops in front of a text. -/
def refuse {α : Type} : Text → Except Stop α
  | [] => .error .cut
  | c :: r => .error (.bad (c :: r))

/-- Stops in front of a character that has to be known as a whole. -/
def refuseWhole {α : Type} (t : Text) : Except Stop α :=
  if isTorn t then .error .torn else refuse t

def Stop.mistake (token : Text) : Stop → Mistake
  | .bad here => ⟨.invalidToken, here⟩
  | .cut => ⟨.unclosedToken, token⟩
  | .torn => ⟨.partialCharacter, token⟩

def skipBlank (t : Text) : Text := t.dropWhile isBlank

/-- The text behind a character that must stand at the front. -/
def expect (c : Char) (t : Text) : Except Stop Text :=
  match t with
  | [] => .error .cut
  | d :: r => if d = c then .ok r else refuse (d :: r)

/-! ### Names -/

/-- What was read, unless half a character stands behind it. -/
def unlessTorn {α : Type} (a : α) (t : Text) : Scanned α :=
  if isTorn t then .error .torn else .ok (a, t)

def name (w : Width) (t : Text) : Scanned Text :=
  match t with
  | [] => .error .cut
  | c :: r =>
    if isNameStart w c then
      unlessTorn (c :: r.takeWhile (isNameChar w)) (r.dropWhile (isNameChar w))
    else refuseWhole (c :: r)

def qualifiedName (w : Width) (t : Text) : Scanned Text :=
  match name w t with
  | .error e => .error e
  | .ok (n, ':' :: r) =>
    match name w r with
    | .error e => .error e
    | .ok (m, r) => .ok (n ++ ':' :: m, r)
  | .ok (n, r) => .ok (n, r)

/-! ### References -/

/-- What a reference stands for; a number that no character has stands for nothing. -/
inductive Reference where
  | entity (name : Text)
  | character (c : Option Char)
deriving DecidableEq, Repr

def digitValue (c : Char) : Nat :=
  if c.isDigit then c.toNat - '0'.toNat
  else if c.isLower then c.toNat - 'a'.toNat + 10
  else c.toNat - 'A'.toNat + 10

/-- Whether a character is a digit to base sixteen. -/
def isHexDigit (c : Char) : Bool :=
  c.isDigit || ('a' ≤ c && c ≤ 'f') || ('A' ≤ c && c ≤ 'F')

/-- The character with a number, if it may stand in a document. -/
def characterOf (n : Nat) : Option Char :=
  if n.isValidChar && isAllowed (Char.ofNat n) then some (Char.ofNat n) else none

/-- Reads the digits of a character number and the semicolon behind them. -/
def characterNumber (base : Nat) (isDigit : Char → Bool) (t : Text) : Scanned Reference :=
  let digits := t.takeWhile isDigit
  if digits.isEmpty then refuse t
  else match expect ';' (t.dropWhile isDigit) with
    | .error e => .error e
    | .ok r =>
      .ok (.character (characterOf (digits.foldl (fun n c => base * n + digitValue c) 0)), r)

def Reference.read (w : Width) (t : Text) : Scanned Reference :=
  match t with
  | '#' :: 'x' :: r => characterNumber 16 isHexDigit r
  | '#' :: r => characterNumber 10 Char.isDigit r
  | t =>
    match name w t with
    | .error e => .error e
    | .ok (n, r) =>
      match expect ';' r with
      | .error e => .error e
      | .ok r => .ok (.entity n, r)

/-- Reads a reference to a parameter behind its percent sign, or nothing where the sign
    stands alone. -/
def parameter (w : Width) (t : Text) : Scanned (Option Text) :=
  match t with
  | [] => .error .cut
  | c :: r =>
    if isBlank c || c = '%' then .ok (none, c :: r)
    else match name w (c :: r) with
      | .error e => .error e
      | .ok (n, r) =>
        match expect ';' r with
        | .error e => .error e
        | .ok r => .ok (some n, r)

/-- The character that a name stands for in every document. -/
def predefined? : Text → Option Char
  | ['l', 't'] => some '<'
  | ['g', 't'] => some '>'
  | ['a', 'm', 'p'] => some '&'
  | ['q', 'u', 'o', 't'] => some '"'
  | ['a', 'p', 'o', 's'] => some '\''
  | _ => none

/-! ### Tags -/

/-- An attribute as written; `here` starts with its name, `after` with the quote that
    ends its value. -/
structure Attribute where
  name : Text
  value : Text
  here : Text
  after : Text
deriving DecidableEq, Repr

/-- A start tag, which may be the end of its element too. -/
structure Tag where
  name : Text
  attributes : List Attribute
  isEmpty : Bool
deriving DecidableEq, Repr

def quotedValue (w : Width) (quote : Char) : Text → Scanned Text
  | [] => .error .cut
  | c :: r =>
    if c = quote then .ok ([], c :: r)
    else if !isAllowed c || c = '<' then refuseWhole (c :: r)
    else
      match (if c = '&' then (Reference.read w r).map (fun _ => ()) else .ok ()) with
      | .error e => .error e
      | .ok () => (quotedValue w quote r).map fun (v, rest) => (c :: v, rest)

def Attribute.read (w : Width) (t : Text) : Scanned Attribute :=
  match qualifiedName w t with
  | .error e => .error e
  | .ok (n, r) =>
    match expect '=' (skipBlank r) with
    | .error e => .error e
    | .ok r =>
      match skipBlank r with
      | [] => .error .cut
      | q :: r =>
        if q = '"' || q = '\'' then
          match quotedValue w q r with
          | .error e => .error e
          | .ok (v, after) => .ok (⟨n, v, t, after⟩, after.drop 1)
        else refuse (q :: r)

/-! ### Less text is left -/

theorem dropWhile_length_le (p : Char → Bool) (t : Text) :
    (t.dropWhile p).length ≤ t.length := (List.dropWhile_suffix p).length_le

theorem skipBlank_length_le (t : Text) : (skipBlank t).length ≤ t.length :=
  dropWhile_length_le isBlank t

theorem refuse_ne_ok {α : Type} (t : Text) (a : α) : refuse t ≠ .ok a := by
  cases t <;> simp [refuse]

theorem refuseWhole_ne_ok {α : Type} (t : Text) (a : α) : refuseWhole t ≠ .ok a := by
  unfold refuseWhole
  split
  · simp
  · exact refuse_ne_ok t a

theorem unlessTorn_eq_ok {α : Type} {a b : α} {t r : Text}
    (h : unlessTorn a t = .ok (b, r)) : a = b ∧ t = r := by
  unfold unlessTorn at h
  split at h
  · simp at h
  · simpa using h

theorem expect_length {c : Char} {t r : Text} (h : expect c t = .ok r) :
    r.length < t.length := by
  unfold expect at h
  split at h
  · simp at h
  · split at h
    · cases h; simp
    · exact absurd h (refuse_ne_ok _ _)

theorem name_length {w : Width} {t n r : Text} (h : name w t = .ok (n, r)) :
    r.length < t.length := by
  unfold name at h
  split at h
  · simp at h
  · split at h
    · rw [← (unlessTorn_eq_ok h).2]
      exact Nat.lt_succ_of_le (dropWhile_length_le _ _)
    · exact absurd h (refuseWhole_ne_ok _ _)

theorem qualifiedName_length {w : Width} {t n r : Text} (h : qualifiedName w t = .ok (n, r)) :
    r.length < t.length := by
  unfold qualifiedName at h
  split at h
  · simp at h
  · next hn =>
    have := name_length hn
    split at h
    · simp at h
    · next hm =>
      have := name_length hm
      cases h
      simp only [List.length_cons] at *
      omega
  · next hn => cases h; exact name_length hn

theorem characterNumber_length {b : Nat} {p : Char → Bool} {t r : Text} {v : Reference}
    (h : characterNumber b p t = .ok (v, r)) : r.length < t.length := by
  unfold characterNumber at h
  simp only at h
  split at h
  · exact absurd h (refuse_ne_ok _ _)
  · split at h
    · simp at h
    · next he =>
      cases h
      exact Nat.lt_of_lt_of_le (expect_length he) (dropWhile_length_le _ _)

theorem Reference.read_length {w : Width} {t r : Text} {v : Reference}
    (h : Reference.read w t = .ok (v, r)) : r.length < t.length := by
  unfold Reference.read at h
  split at h
  · have := characterNumber_length h; simp only [List.length_cons]; omega
  · have := characterNumber_length h; simp only [List.length_cons]; omega
  · split at h
    · simp at h
    · next hn =>
      split at h
      · simp at h
      · next he =>
        cases h
        exact Nat.lt_trans (expect_length he) (name_length hn)

theorem parameter_length {w : Width} {t r : Text} {v : Option Text}
    (h : parameter w t = .ok (v, r)) : r.length ≤ t.length := by
  unfold parameter at h
  split at h
  · simp at h
  · split at h
    · cases h; exact Nat.le_refl _
    · split at h
      · simp at h
      · next hn =>
        split at h
        · simp at h
        · next he =>
          cases h
          exact Nat.le_of_lt (Nat.lt_trans (expect_length he) (name_length hn))

theorem quotedValue_length {w : Width} {q : Char} {t v r : Text}
    (h : quotedValue w q t = .ok (v, r)) : r.length ≤ t.length := by
  induction t generalizing v with
  | nil => simp [quotedValue] at h
  | cons c t ih =>
    rw [quotedValue] at h
    split at h
    · cases h; exact Nat.le_refl _
    · split at h
      · exact absurd h (refuseWhole_ne_ok _ _)
      · split at h
        · simp at h
        · cases hq : quotedValue w q t with
          | error e => rw [hq] at h; simp [Except.map] at h
          | ok p =>
            rw [hq] at h
            simp only [Except.map, Except.ok.injEq, Prod.mk.injEq] at h
            have := ih (v := p.1) (by rw [hq, ← h.2])
            simp only [List.length_cons]
            omega

theorem Attribute.read_length {w : Width} {t r : Text} {a : Attribute}
    (h : Attribute.read w t = .ok (a, r)) : r.length < t.length := by
  unfold Attribute.read at h
  split at h
  · simp at h
  · next hn =>
    have h1 := qualifiedName_length hn
    split at h
    · simp at h
    · next r₁ _ r₂ he =>
      have h2 := expect_length he
      split at h
      · simp at h
      · next q r₃ hs =>
        have h4 := skipBlank_length_le r₂
        rw [hs] at h4
        split at h
        · split at h
          · simp at h
          · next hv =>
            have h5 := quotedValue_length hv
            cases h
            have h6 := skipBlank_length_le r₁
            simp only [List.length_drop, List.length_cons] at *
            omega
        · exact absurd h (refuse_ne_ok _ _)

end ScriptModule.Markup
