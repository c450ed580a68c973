/-
  ScriptModule/Proofs/LexemeShape.lean
  ====================================
  **What is read at a character.**  A lexeme has one of a few shapes, each with characters
  of its own at the start, and each shape has few kinds.  What is said of all lexemes is said
  of each shape.
-/
import ScriptModule.Token.Lexeme

namespace ScriptModule.Lexeme

open Unicode

/-! ### Shapes -/

/-- Where no other shape starts: at a character without a role, or at an angle that opens no
    comment. -/
structure StartsPlain (c : Char) (r : Text) : Prop where
  mark : punctuation? c = none
  other : c ∉ ['#', '$', '@', '\'', '"', '-', ':']
  angle : c = '<' → ∀ s, r ≠ '#' :: s

/-- The characters that have a role of their own. -/
def roles : Text := ['#', '$', '@', '\'', '"', '-', ':', '<', '\x7b', '\x7d', '(', ')', '[', ']',
  ',', ';', '.', '|', '=', '\n']

/-- A class of characters without roles. -/
theorem startsPlain_of {p : Char → Bool} (hp : roles.any p = false) {c : Char} (h : p c = true)
    (r : Text) : StartsPlain c r := by
  have hno : ∀ d ∈ roles, c ≠ d := by
    rintro d hd rfl
    exact List.any_eq_false.mp hp c hd h
  have hothers : ['#', '$', '@', '\'', '"', '-', ':'] <+: roles := ⟨_, rfl⟩
  refine ⟨?_, fun hmem => hno c (hothers.subset hmem) rfl, ?_⟩
  · unfold punctuation?
    split <;> first | rfl | exact absurd rfl (hno _ (by decide))
  · rintro rfl
    exact absurd rfl (hno '<' (by decide))

/-- A lexeme that is read at a character, with what stands behind the character. -/
inductive Reads (sign : Bool) : Char → Text → Lexeme → Prop where
  | punctuation {c : Char} {k : TokenKind} (r : Text) :
      punctuation? c = some k → Reads sign c r ⟨k, 0, none⟩
  | lineComment (r : Text) : Reads sign '#' r ⟨.comment, lineCommentLength r, none⟩
  | blockComment {r : Text} {n : Nat} :
      blockCommentLength? r = some n → Reads sign '<' ('#' :: r) ⟨.comment, n + 1, none⟩
  | dollar {r : Text} {l : Lexeme} : dollar r = .ok l → Reads sign '$' r l
  | atSign {r : Text} {l : Lexeme} : atSign r = .ok l → Reads sign '@' r l
  | singleQuoted {r v : Text} {n : Nat} :
      singleQuoted? r = some (n, v) → Reads sign '\'' r ⟨.string, n, some v⟩
  | doubleQuoted {r v : Text} {n : Nat} :
      doubleQuoted? [] r = some (n, v) → Reads sign '"' r ⟨.string, n, some v⟩
  | dash (r : Text) : Reads sign '-' r (dash sign r)
  | doubleColon (r : Text) : Reads sign ':' (':' :: r) ⟨.doubleColon, 1, none⟩
  | colon {r : Text} : (∀ s, r ≠ ':' :: s) → Reads sign ':' r ⟨.colon, 0, none⟩
  | plain {c : Char} {r : Text} : StartsPlain c r → Reads sign c r (plain c r)

theorem read_of_punctuation {c : Char} {k : TokenKind} (h : punctuation? c = some k)
    (sign : Bool) (r : Text) : read sign c r = .ok ⟨k, 0, none⟩ := by
  simp only [read, h]

theorem reads_of_read {sign : Bool} {c : Char} {r : Text} {l : Lexeme}
    (h : read sign c r = .ok l) : Reads sign c r l := by
  rcases hp : punctuation? c with _ | k
  · simp only [read, hp] at h
    split at h
    · cases h
      exact .lineComment r
    · split at h
      · next n hn =>
        cases h
        exact .blockComment hn
      · cases h
    · exact .dollar h
    · exact .atSign h
    · rcases hs : singleQuoted? r with _ | ⟨n, v⟩ <;> rw [hs] at h <;> cases h
      exact .singleQuoted hs
    · rcases hs : doubleQuoted? [] r with _ | ⟨n, v⟩ <;> rw [hs] at h <;> cases h
      exact .doubleQuoted hs
    · cases h
      exact .dash r
    · cases h
      exact .doubleColon _
    · next hcolon =>
      cases h
      exact .colon hcolon
    · next hhash hdollar hat hsingle hdouble hdash hcolon hangle _ =>
      cases h
      refine .plain ⟨hp, ?_, fun hc s => hangle s hc⟩
      simp only [List.mem_cons, List.not_mem_nil, or_false, not_or]
      exact ⟨hhash, hdollar, hat, hsingle, hdouble, hdash, hcolon⟩
  · rw [read_of_punctuation hp] at h
    cases h
    exact .punctuation r hp

theorem Reads.read_eq {sign : Bool} {c : Char} {r : Text} {l : Lexeme} (h : Reads sign c r l) :
    read sign c r = .ok l := by
  cases h with
  | punctuation _ hp => exact read_of_punctuation hp sign r
  | lineComment => rfl
  | blockComment hn =>
    have hp : punctuation? '<' = none := rfl
    simp only [read, hp, hn]
  | dollar h => exact h
  | atSign h => exact h
  | singleQuoted hs => exact congrArg ofString hs
  | doubleQuoted hs => exact congrArg ofString hs
  | dash => rfl
  | doubleColon => rfl
  | colon hcolon =>
    simp only [read, punctuation?]
    split <;> simp_all
  | plain hplain =>
    obtain ⟨hp, hother, hangle⟩ := hplain
    simp only [read, hp]
    split
    all_goals first | rfl | exact absurd (by decide) hother | exact absurd rfl (hangle rfl _)

/-! ### Kinds of the shapes -/

theorem kind_dollar {r : Text} {l : Lexeme} (h : dollar r = .ok l) :
    l.kind = .dollarParen ∨ l.kind = .variable ∨ l.kind = .operator := by
  unfold dollar at h
  split at h
  · cases h
    exact .inl rfl
  · split at h <;> cases h
    exact .inr (.inl rfl)
  · split at h
    · cases h
      exact .inr (.inl rfl)
    · split at h <;> cases h
      · exact .inr (.inl rfl)
      · exact .inr (.inr rfl)
  · cases h
    exact .inr (.inr rfl)

theorem kind_atSign {r : Text} {l : Lexeme} (h : atSign r = .ok l) :
    l.kind = .atParen ∨ l.kind = .atBrace ∨ l.kind = .string ∨ l.kind = .splat ∨
      l.kind = .operator := by
  unfold atSign at h
  split at h
  · cases h
    exact .inl rfl
  · cases h
    exact .inr (.inl rfl)
  · split at h
    · split at h <;> cases h
      exact .inr (.inr (.inl rfl))
    · split at h <;> cases h
      · exact .inr (.inr (.inr (.inl rfl)))
      · exact .inr (.inr (.inr (.inr rfl)))

theorem kind_dash (sign : Bool) (r : Text) :
    ((dash sign r).kind = .number ∧ sign = true) ∨ (dash sign r).kind = .parameter ∨
      (dash sign r).kind = .operator := by
  unfold dash
  split
  · split
    · next hnumber => exact .inl ⟨rfl, (Bool.and_eq_true _ _ ▸ hnumber).2⟩
    · split
      · exact .inr (.inl rfl)
      · split <;> exact .inr (.inr rfl)
  · exact .inr (.inr rfl)

theorem isName_wordKind (t : Text) : (wordKind t).isName = true := by
  have hall : ∀ e ∈ keywords, e.2.isName = true := by decide
  rw [wordKind]
  rcases hk : keywords.lookup (Text.fold t) with _ | k
  · rfl
  · obtain ⟨front, back, hsplit, -⟩ := List.lookup_eq_some_iff.mp hk
    exact hall (Text.fold t, k) (by simp [hsplit])

theorem kind_plain (c : Char) (r : Text) :
    (isDigit c = true ∧ (plain c r).kind = .number) ∨
      (startsWord c = true ∧ (plain c r).kind.isName = true) ∨ (plain c r).kind = .operator := by
  unfold plain
  split
  · next hdigit => exact .inl ⟨hdigit, rfl⟩
  · split
    · next hword => exact .inr (.inl ⟨hword, isName_wordKind _⟩)
    · split <;> exact .inr (.inr rfl)

theorem kind_plain_ne {k : TokenKind} (hname : k.isName = false) (hnumber : k ≠ .number)
    (hoperator : k ≠ .operator) (c : Char) (r : Text) : (plain c r).kind ≠ k := by
  rintro rfl
  rcases kind_plain c r with ⟨-, h⟩ | ⟨-, h⟩ | h
  · exact hnumber h
  · rw [hname] at h
    cases h
  · exact hoperator h

theorem kind_punctuation? {c : Char} {k : TokenKind} (h : punctuation? c = some k) :
    k ∈ [TokenKind.leftBrace, .rightBrace, .leftParen, .rightParen, .leftBracket, .rightBracket,
      .comma, .semicolon, .dot, .pipe, .equals, .newline] := by
  unfold punctuation? at h
  split at h <;> cases h <;> decide

end ScriptModule.Lexeme
