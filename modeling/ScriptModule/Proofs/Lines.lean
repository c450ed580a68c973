/-
  ScriptModule/Proofs/Lines.lean
  ==============================
  **Rows of lines.**  A line that is cut into the same pieces wherever it stands, and that
  is read as one statement in front of whatever the lines behind it are read as, is a
  statement of every text it is a line of.  So lines may be judged one by one.
-/
import ScriptModule.Proofs.Composition

namespace ScriptModule

open Lexeme Script Grammar

/-! ### One line -/

/-- Whether nothing stands behind a line, or a line end does. -/
def IsLineEnd (rest : Text) : Prop := rest = [] ∨ StartsLine rest

/-- Pieces of a line that is read as one statement, wherever it stands. -/
structure IsLine (ps : List Piece) (content : Content) : Prop where
  spells : ∀ (before : Option TokenKind) {rest : Text}, IsLineEnd rest → Spells before rest ps
  reads : ∀ {sc : Script} {front back : Text} {ts : List Token} {sts : List Statement},
    sc.source = front ++ (textOf ps ++ back) → (∀ t ∈ ts.head?, t.kind = .newline) →
    Statements sc ts sts → ∃ st, st.content = content ∧
      Statements sc (tokensOf (Position.start.advance front) ps ++ ts) (st :: sts)

/-! ### Lines behind a line -/

/-- The pieces of lines that stand behind another one. -/
def linesBehind (ls : List (List Piece × Content)) : List Piece :=
  ls.flatMap fun l => newlinePiece :: l.1

theorem textOf_linesBehind (ls : List (List Piece × Content)) :
    textOf (linesBehind ls) = (ls.map fun l => textOf l.1).flatMap ('\n' :: ·) := by
  induction ls with
  | nil => rfl
  | cons l ls ih =>
    have hcons : linesBehind (l :: ls) = newlinePiece :: l.1 ++ linesBehind ls := rfl
    rw [hcons, textOf_append, ih]
    rfl

theorem isLineEnd_linesBehind (ls : List (List Piece × Content)) :
    IsLineEnd (textOf (linesBehind ls) ++ []) := by
  cases ls with
  | nil => exact .inl rfl
  | cons l ls => exact .inr ⟨_, rfl⟩

theorem head?_linesBehind (place : Position) (ls : List (List Piece × Content)) :
    ∀ t ∈ (tokensOf place (linesBehind ls)).head?, t.kind = .newline := by
  intro t ht
  cases ls with
  | nil => cases ht
  | cons l ls =>
    cases ht
    rfl

theorem spells_linesBehind (before : Option TokenKind) {ls : List (List Piece × Content)}
    (h : ∀ l ∈ ls, IsLine l.1 l.2) : Spells before [] (linesBehind ls) := by
  induction ls generalizing before with
  | nil => trivial
  | cons l ls ih =>
    rw [List.forall_mem_cons] at h
    refine spells_append.mpr ⟨⟨⟨rfl, rfl, rfl⟩, ?_⟩, ih _ h.2⟩
    exact h.1.spells _ (isLineEnd_linesBehind ls)

/-- A line and the lines behind it are read as their statements, one after the other. -/
theorem reads_linesBehind {l : List Piece × Content} {ls : List (List Piece × Content)}
    (hl : IsLine l.1 l.2) (h : ∀ l ∈ ls, IsLine l.1 l.2) {sc : Script} {front : Text}
    (hsource : sc.source = front ++ (textOf l.1 ++ textOf (linesBehind ls))) :
    ∃ sts, sts.map Statement.content = (l :: ls).map Prod.snd ∧
      Statements sc (tokensOf (Position.start.advance front) (l.1 ++ linesBehind ls)) sts := by
  have hnewline := head?_linesBehind ((Position.start.advance front).advance (textOf l.1)) ls
  induction ls generalizing l front with
  | nil =>
    obtain ⟨st, hst, hread⟩ := hl.reads hsource hnewline .nil
    refine ⟨[st], by simp [hst], ?_⟩
    rw [tokensOf_append]
    exact hread
  | cons m ls ih =>
    rw [List.forall_mem_cons] at h
    -- the line end between the two lines is skipped
    have hbehind : sc.source =
        (front ++ textOf l.1 ++ ['\n']) ++ (textOf m.1 ++ textOf (linesBehind ls)) := by
      rw [hsource]
      simp [linesBehind, newlinePiece, Piece.text]
    obtain ⟨sts, hsts, hmore⟩ := ih h.1 h.2 hbehind (head?_linesBehind _ ls)
    rw [advance_append, advance_append] at hmore
    have hskipped : Statements sc (tokensOf ((Position.start.advance front).advance (textOf l.1))
        (linesBehind (m :: ls))) sts :=
      @Statements.separator sc (token ⟨.newline, 0, none⟩ _ '\n' []) _ sts rfl hmore
    obtain ⟨st, hst, hread⟩ := hl.reads hsource hnewline hskipped
    refine ⟨st :: sts, by simp [hst, hsts], ?_⟩
    rw [tokensOf_append]
    exact hread

/-! ### All lines -/

theorem exists_linePieces {ls : List (Text × Content)}
    (h : ∀ l ∈ ls, ∃ ps, textOf ps = l.1 ∧ IsLine ps l.2) :
    ∃ ms : List (List Piece × Content), ms.map (fun m => (textOf m.1, m.2)) = ls ∧
      ∀ m ∈ ms, IsLine m.1 m.2 := by
  induction ls with
  | nil => exact ⟨[], rfl, List.forall_mem_nil _⟩
  | cons l ls ih =>
    rw [List.forall_mem_cons] at h
    obtain ⟨⟨ps, htext, hline⟩, hmore⟩ := h
    obtain ⟨ms, rfl, hms⟩ := ih hmore
    refine ⟨(ps, l.2) :: ms, ?_, List.forall_mem_cons.mpr ⟨hline, hms⟩⟩
    rw [List.map_cons, htext]

/-- Lines that are each read as one statement are together the source of these statements. -/
theorem classify_lines (file : Option Text) {ls : List (Text × Content)}
    (h : ∀ l ∈ ls, ∃ ps, textOf ps = l.1 ∧ IsLine ps l.2) :
    ∃ sts, classify file (Text.join "\n" (ls.map Prod.fst)) = .ok sts ∧
      sts.map Statement.content = ls.map Prod.snd := by
  obtain ⟨ms, rfl, hms⟩ := exists_linePieces h
  simp only [List.map_map, Function.comp_def]
  cases ms with
  | nil => exact ⟨[], classify_iff.mpr ⟨⟨[], .start⟩, by simp [Text.join, scan, scanFrom], .nil⟩, rfl⟩
  | cons m ms =>
    rw [List.forall_mem_cons] at hms
    have hspells : Spells none [] (m.1 ++ linesBehind ms) :=
      spells_append.mpr ⟨hms.1.spells none (isLineEnd_linesBehind ms), spells_linesBehind _ hms.2⟩
    have htext : Text.join "\n" ((m :: ms).map fun m => textOf m.1) =
        textOf (m.1 ++ linesBehind ms) := by
      rw [textOf_append, textOf_linesBehind]
      exact Text.join_cons _ _ _
    rw [htext]
    have hscan := scanFrom_textOf hspells .start
    obtain ⟨sts, hsts, hread⟩ := @reads_linesBehind m ms hms.1 hms.2
      ⟨file, textOf (m.1 ++ linesBehind ms), tokensOf .start (m.1 ++ linesBehind ms), _⟩ []
      (textOf_append m.1 (linesBehind ms))
    exact ⟨sts, classify_iff.mpr ⟨_, hscan, hread⟩, hsts⟩

end ScriptModule
