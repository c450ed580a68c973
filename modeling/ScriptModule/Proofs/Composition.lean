/-
  ScriptModule/Proofs/Composition.lean
  ====================================
  **Sources one below the other.**  Two sources with a line end between them are scanned
  into the tokens of the first, the line end, and the tokens of the second further down,
  and so their statements are those of the first and of the second.
-/
import Mathlib.Data.List.Basic
import ScriptModule.Proofs.Relocation

namespace ScriptModule

open Lexeme Script

/-! ### Moved places -/

theorem advance_moved (offset lines : Nat) (place : Position) (t : Text) :
    (place.moved offset lines).advance t = (place.advance t).moved offset lines := by
  induction t generalizing place with
  | nil => rfl
  | cons c t ih =>
    have hnext : (place.moved offset lines).next c = (place.next c).moved offset lines := by
      rw [next_eq, next_eq]
      split
      · simp only [Position.moved, Nat.add_right_comm]
      · simp only [Position.moved, Nat.add_right_comm]
    change ((place.moved offset lines).next c).advance t = ((place.next c).advance t).moved _ _
    rw [hnext, ih]

theorem token_moved (offset lines : Nat) (l : Lexeme) (place : Position) (c : Char) (r : Text) :
    l.token (place.moved offset lines) c r = (l.token place c r).moved offset lines := by
  simp only [token, Token.moved, advance_moved]

theorem tokensOf_moved (offset lines : Nat) (place : Position) (ps : List Piece) :
    tokensOf (place.moved offset lines) ps =
      (tokensOf place ps).map (Token.moved offset lines) := by
  induction ps generalizing place with
  | nil => rfl
  | cons p ps ih =>
    cases p with
    | gap c w => rw [tokensOf, tokensOf, advance_moved, ih]
    | lexeme c w l => rw [tokensOf, tokensOf, advance_moved, ih, token_moved, List.map_cons]

theorem token_moved_zero (t : Token) : t.moved 0 0 = t := rfl

theorem below_zero (st : Statement) : st.below 0 = st := by
  have hspan : Span.below 0 = id := by
    funext s
    simp [Span.below]
  rw [Statement.below, hspan, Option.map_id]
  rfl

/-- Behind a line end a text starts in the first column, as a source does. -/
theorem advance_newline (a : Text) :
    Position.start.advance (a ++ ['\n']) =
      Position.start.moved (a.length + 1) (1 + a.count '\n') := by
  rw [advance_start, afterLast_concat, if_pos rfl]
  simp [Position.start, Position.moved, Nat.add_comm, Nat.add_left_comm]

/-! ### Scans -/

def newlinePiece : Piece := .lexeme '\n' [] ⟨.newline, 0, none⟩

theorem not_open_of_getLast? {ps : List Piece} (hback : (textOf ps).getLast? ≠ some '\x60')
    (hcr : (textOf ps).getLast? ≠ some '\r') : ∀ p ∈ ps.getLast?, ¬ p.Open := by
  intro p hp hopen
  obtain ⟨front, rfl⟩ := List.getLast?_eq_some_iff.mp hp
  have hlast : (textOf (front ++ [p])).getLast? = p.text.getLast? := by
    rw [textOf_append, textOf_cons, textOf_nil, List.append_nil,
      List.getLast?_append_of_ne_nil _ p.text_ne_nil]
  rw [hlast] at hback hcr
  rcases hopen with hopen | hopen
  · rw [hopen] at hback
    exact absurd rfl hback
  · rw [hopen] at hcr
    exact absurd rfl hcr

/-- In front of a line end pieces stay as they are, unless it would continue the last one. -/
theorem Spells.before_newline {before : Option TokenKind} {ps : List Piece} {old : Text}
    (h : Spells before old ps) (hopen : ∀ p ∈ ps.getLast?, ¬ p.Open) (t : Text) :
    Spells before ('\n' :: t) ps := by
  apply h.change_rest (Ahead.newline t old)
  · intro hopens
    cases hopens
  · intro p hp ho
    exact absurd ho (hopen p hp)

/-- Pieces and a line end behind them, as pieces of a longer text. -/
theorem Spells.concat_newline {ps : List Piece} {old : Text} (h : Spells none old ps)
    (hopen : ∀ p ∈ ps.getLast?, ¬ p.Open) (t : Text) : Spells none t (ps ++ [newlinePiece]) := by
  have hfront : Spells none (textOf [newlinePiece] ++ t) ps := h.before_newline hopen t
  exact spells_append.mpr ⟨hfront, ⟨rfl, rfl, rfl⟩, trivial⟩

theorem scan_concat_newline {ps : List Piece} (hps : Spells none [] ps)
    (hopen : ∀ p ∈ ps.getLast?, ¬ p.Open) {b : Text} {r : Scan} (hb : scan b = .ok r) :
    ∃ w nl, scan (textOf ps ++ '\n' :: b) = .ok w ∧ nl.kind = .newline ∧
      nl.start = Position.start.advance (textOf ps) ∧
      w.tokens = tokensOf Position.start ps ++ nl ::
        r.tokens.map (Token.moved ((textOf ps).length + 1) (1 + (textOf ps).count '\n')) := by
  obtain ⟨qs, rfl, hqs, hr⟩ := exists_pieces hb
  have hafter : signMayFollow (afterAll none (ps ++ [newlinePiece])) = signMayFollow none := by
    rw [afterAll, List.foldl_append]
    rfl
  have hfront := hps.concat_newline hopen (textOf qs ++ [])
  have hall := spells_append.mpr ⟨hfront, hqs.congr_before hafter.symm⟩
  have htext : textOf (ps ++ [newlinePiece] ++ qs) = textOf ps ++ '\n' :: textOf qs := by
    simp [newlinePiece, Piece.text]
  have hplace : (Position.start.advance (textOf ps)).advance ['\n'] =
      Position.start.moved ((textOf ps).length + 1) (1 + (textOf ps).count '\n') := by
    rw [← advance_append, advance_newline]
  have hscan := scanFrom_textOf hall Position.start
  rw [htext] at hscan
  let nl : Token := token ⟨.newline, 0, none⟩ (Position.start.advance (textOf ps)) '\n' []
  refine ⟨_, nl, hscan, rfl, rfl, ?_⟩
  rw [hr, List.append_assoc, tokensOf_append, List.singleton_append, newlinePiece, tokensOf, hplace,
    tokensOf_moved]

theorem scan_append {a b : Text} {s r : Scan} (ha : scan a = .ok s) (hb : scan b = .ok r)
    (hback : a.getLast? ≠ some '\x60') (hcr : a.getLast? ≠ some '\r') :
    ∃ w nl, scan (a ++ '\n' :: b) = .ok w ∧ nl.kind = .newline ∧
      w.tokens = s.tokens ++ nl ::
        r.tokens.map (Token.moved (a.length + 1) (1 + a.count '\n')) := by
  obtain ⟨ps, rfl, hps, hs⟩ := exists_pieces ha
  obtain ⟨w, nl, hw, hkind, -, htokens⟩ :=
    scan_concat_newline hps (not_open_of_getLast? hback hcr) hb
  rw [← hs] at htokens
  exact ⟨w, nl, hw, hkind, htokens⟩

theorem scan_inside {filename : Option Text} {source : Text} {s : Scan}
    (h : scan source = .ok s) : Inside ⟨filename, source, s.tokens, s.stop⟩ s.tokens := by
  intro t ht
  exact (standsIn_of_scan h t ht).inside

/-! ### Classified sources -/

/-- Below another source, a source has its own statements, further down.  The source in
    front must not continue its last line: it does not end with a backtick (nor with a
    carriage return, which may stand behind one), and a last assignment does not end with
    a pipe, a comma, an equals sign or an operator. -/
theorem classify_append {filename : Option Text} {a b : Text} {as bs : List Statement}
    (ha : classify filename a = .ok as) (hb : classify filename b = .ok bs)
    (hback : a.getLast? ≠ some '\x60') (hcr : a.getLast? ≠ some '\r')
    (hcomplete : ∀ s, scan a = .ok s → LastComplete s.tokens as) :
    classify filename (a ++ '\n' :: b) =
      .ok (as ++ bs.map (Statement.below (1 + a.count '\n'))) := by
  obtain ⟨s, hs, hfirst⟩ := classify_iff.mp ha
  obtain ⟨r, hr, hsecond⟩ := classify_iff.mp hb
  obtain ⟨w, nl, hw, hkind, htokens⟩ := scan_append hs hr hback hcr
  apply classify_iff.mpr
  refine ⟨w, hw, ?_⟩
  let whole : Script := ⟨filename, a ++ '\n' :: b, w.tokens, w.stop⟩
  -- the second source stands behind the first and the line end
  let below : Placement := ⟨a.length + 1, 1 + a.count '\n', []⟩
  have hbelow : below.Of ⟨filename, b, r.tokens, r.stop⟩ whole := by
    refine ⟨rfl, ⟨a ++ ['\n'], [], by simp [whole], by simp [below]⟩, ?_⟩
    intro t ht
    cases ht
  have hlower := hbelow.statements_tokens hsecond (scan_inside hr) (fun h => absurd rfl h) .nil
  have hseparator : Grammar.isSeparator nl = true := by simp [Grammar.isSeparator, hkind]
  -- the first source stands where it did
  let front : Placement := ⟨0, 0, nl :: below.tokens r.tokens⟩
  have hfront : front.Of ⟨filename, a, s.tokens, s.stop⟩ whole := by
    refine ⟨rfl, ⟨[], '\n' :: b, by simp [whole], rfl⟩, ?_⟩
    intro t ht
    cases ht
    exact hkind
  have hall := hfront.statements_tokens hfirst (scan_inside hs) (fun _ => hcomplete s hs)
    (.separator hseparator hlower)
  have hplaced : front.tokens s.tokens = w.tokens := by
    have hid : front.token = id := funext token_moved_zero
    rw [htokens, Placement.tokens, hid, List.map_id]
    exact congrArg (s.tokens ++ nl :: ·) (List.append_nil _)
  have hstatements : as.map (Statement.below 0) = as := by
    rw [funext below_zero, List.map_id']
  rw [hplaced, hstatements, List.append_nil] at hall
  exact hall

/-- A continued assignment with a comment behind it, over an assignment that starts with a
    sign and an attribute. -/
theorem classify_append_signs :
    ∃ a b : Text, a = "#Requires -Version 5
$x = 1 +
  (2) # c".toList ∧ b = "$y = -1; [A()]
enum E \x7b F = -2 \x7d".toList ∧
      ∃ as bs, classify none a = .ok as ∧ as.length = 2 ∧ classify none b = .ok bs ∧
        bs.length = 2 ∧ (∀ s, scan a = .ok s → LastComplete s.tokens as) ∧
        classify none (a ++ '\n' :: b) = .ok (as ++ bs.map (Statement.below 3)) := by
  have hrun : ((classify none "#Requires -Version 5
$x = 1 +
  (2) # c".toList).toOption.any fun as => as.length = 2 && (scan "#Requires -Version 5
$x = 1 +
  (2) # c".toList).toOption.any fun s => LastComplete s.tokens as) = true := by
    decide +kernel
  have hbelow : (classify none "$y = -1; [A()]
enum E \x7b F = -2 \x7d".toList).toOption.any (fun bs => bs.length = 2) = true := by
    decide +kernel
  obtain ⟨as, has, hrun⟩ := toOption_any.mp hrun
  obtain ⟨bs, hbs, hlength⟩ := toOption_any.mp hbelow
  obtain ⟨hcount, hrun⟩ := (Bool.and_eq_true _ _).mp hrun
  obtain ⟨s, hs, hlast⟩ := toOption_any.mp hrun
  have hcomplete : ∀ r, scan "#Requires -Version 5
$x = 1 +
  (2) # c".toList = .ok r → LastComplete r.tokens as := by
    intro r hr
    cases hs.symm.trans hr
    exact of_decide_eq_true hlast
  exact ⟨_, _, rfl, rfl, as, bs, has, of_decide_eq_true hcount, hbs, of_decide_eq_true hlength,
    hcomplete, classify_append has hbs (by decide) (by decide) hcomplete⟩

end ScriptModule
