/-
  ScriptModule/Token/Group.lean
  =============================
  **Bracketed groups.**  Two readings of brackets: a parameter block is looked for
  outside all groups, where each closer ends the innermost group of its own kind;
  a group is skipped by counting alone, where any closer ends any group.
-/
import ScriptModule.Token.Basic

namespace ScriptModule

/-! ### The parameter block -/

/-- The groups still open behind a closer: it ends the innermost group of its kind
    and every group inside that one; a stray closer ends all. -/
def closeGroup (closer : TokenKind) (groups : List TokenKind) : List TokenKind :=
  (groups.dropWhile fun k => k.closer? != some closer).drop 1

/-- The groups open behind a token. -/
def groupsAfter (groups : List TokenKind) (k : TokenKind) : List TokenKind :=
  if k.isOpener then k :: groups
  else if k.isCloser then closeGroup k groups
  else groups

/-- The index of the first parameter keyword outside all groups, inside `groups`. -/
def paramIndexFrom (groups : List TokenKind) : List Token → Option Nat
  | [] => none
  | t :: ts =>
    if t.kind == .paramWord && groups.isEmpty then some 0
    else (paramIndexFrom (groupsAfter groups t.kind) ts).map (· + 1)

/-- The index of the first parameter keyword outside all groups. -/
def paramIndex? (ts : List Token) : Option Nat := paramIndexFrom [] ts

/-! ### Skipping a group -/

/-- The token that closes a group and the tokens behind it, where `depth` groups are
    open inside the group. -/
def groupEnd? (depth : Nat) : List Token → Option (Token × List Token)
  | [] => none
  | t :: ts =>
    if t.kind.isOpener then groupEnd? (depth + 1) ts
    else if t.kind.isCloser then
      match depth with
      | 0 => some (t, ts)
      | d + 1 => groupEnd? d ts
    else groupEnd? depth ts

theorem groupEnd?_suffix {depth : Nat} {ts : List Token} {t : Token} {rest : List Token}
    (h : groupEnd? depth ts = some (t, rest)) : (t :: rest) <:+ ts := by
  induction ts generalizing depth with
  | nil => simp [groupEnd?] at h
  | cons a as ih =>
    have step : ∀ {d}, groupEnd? d as = some (t, rest) → (t :: rest) <:+ a :: as :=
      fun hd => List.IsSuffix.trans (ih hd) (List.suffix_cons a as)
    unfold groupEnd? at h
    split at h
    · exact step h
    · split at h
      · cases depth with
        | zero =>
          obtain ⟨rfl, rfl⟩ : a = t ∧ as = rest := by simpa using h
          exact List.suffix_refl _
        | succ d => exact step h
      · exact step h

theorem groupEnd?_length {depth : Nat} {ts : List Token} {t : Token} {rest : List Token}
    (h : groupEnd? depth ts = some (t, rest)) : rest.length < ts.length := by
  have := (groupEnd?_suffix h).length_le
  exact this

end ScriptModule
