/-
  ScriptModule/Proofs/Tiling.lean
  ===============================
  **Tokens tile their source.**  The tokens of a scan stand one behind the other, between
  them stands only what is skipped, each has the text of its stretch of the source, and
  its line and column are those that counting line feeds gives.
-/
import Mathlib.Data.List.Induction
import ScriptModule.Outcome
import ScriptModule.Proofs.Pieces
import ScriptModule.Proofs.TextLaws

namespace ScriptModule

open Lexeme

/-! ### Lines and columns -/

/-- The line of an offset: one more than the line feeds in front of it. -/
def lineAt (source : Text) (o : Nat) : Nat := (source.take o).count '\n' + 1

/-- The column of an offset: its distance from the last line feed in front of it. -/
def columnAt (source : Text) (o : Nat) : Nat :=
  (Text.afterLast '\n' (source.take o)).length + 1

def placeAt (source : Text) (o : Nat) : Position := ⟨o, lineAt source o, columnAt source o⟩

theorem afterLast_concat (sep c : Char) (t : Text) :
    Text.afterLast sep (t ++ [c]) = if c = sep then [] else Text.afterLast sep t ++ [c] := by
  by_cases hc : c = sep <;> simp [Text.afterLast, hc]

theorem next_eq (p : Position) (c : Char) :
    p.next c = if c = '\n' then ⟨p.offset + 1, p.line + 1, 1⟩
      else ⟨p.offset + 1, p.line, p.column + 1⟩ := rfl

theorem advance_start (t : Text) :
    Position.start.advance t =
      ⟨t.length, t.count '\n' + 1, (Text.afterLast '\n' t).length + 1⟩ := by
  induction t using List.reverseRecOn with
  | nil => rfl
  | append_singleton t c ih =>
    have hstep : Position.start.advance (t ++ [c]) = (Position.start.advance t).next c :=
      advance_append _ _ _
    rw [hstep, ih, next_eq, afterLast_concat]
    by_cases hc : c = '\n'
    · simp [hc]
    · simp [hc]

theorem placeAt_append (front back : Text) :
    placeAt (front ++ back) front.length = Position.start.advance front := by
  rw [advance_start, placeAt, lineAt, columnAt, List.take_left]

/-! ### What is skipped -/

/-- Text that is skipped: blanks, and backticks with the end of their line. -/
inductive Skipped : Text → Prop
  | nil : Skipped []
  | blank {c : Char} {t : Text} : isGap c = true → Skipped t → Skipped (c :: t)
  | continuation {lineEnd t : Text} : lineEnd ∈ [['\r', '\n'], ['\r'], ['\n']] → Skipped t →
      Skipped ('\x60' :: (lineEnd ++ t))

theorem Skipped.append {a b : Text} (ha : Skipped a) (hb : Skipped b) : Skipped (a ++ b) := by
  induction ha with
  | nil => exact hb
  | blank hc _ ih => exact .blank hc ih
  | continuation hend _ ih =>
    rw [List.cons_append, List.append_assoc]
    exact .continuation hend ih

theorem skipped_gap {sign : Bool} {c : Char} {w rest : Text}
    (h : (Piece.gap c w).Fits sign rest) : Skipped (c :: w) := by
  rcases gap_cases h with ⟨-, hblank, rfl⟩ | ⟨rfl, hend⟩
  · exact .blank hblank .nil
  · rw [← List.append_nil w]
    apply Skipped.continuation _ .nil
    rcases hend with rfl | rfl | ⟨rfl, -⟩ <;> simp

/-! ### Stretches of a source -/

/-- The stretches of a source between tokens, from the offset `o` to its end. -/
def betweenFrom (source : Text) (o : Nat) : List Token → List Text
  | [] => [source.extract o]
  | t :: ts => source.extract o t.start.offset :: betweenFrom source t.stop.offset ts

/-- What a token of some kind shows of its stretch: a comment to the end of the line does
    not keep the carriage returns of the line end. -/
def shown (kind : TokenKind) (stretch : Text) : Text :=
  if kind = .comment ∧ stretch.head? = some '#' then Text.dropEndWhile (· = '\r') stretch
  else stretch

theorem extract_mid (a b c : Text) :
    (a ++ (b ++ c)).extract a.length (a.length + b.length) = b := by
  simp [List.extract_eq_take_drop]

theorem text_eq_shown {l : Lexeme} {w : Text} (h : w.length = l.extra) (c : Char) :
    l.text c w = shown l.kind (c :: w) := by
  have hall : w.take l.extra = w := by rw [← h, List.take_length]
  by_cases hkind : l.kind = .comment
  · by_cases hc : c = '#' <;> simp [Lexeme.text, shown, hall, hkind, hc]
  · simp [Lexeme.text, shown, hall, hkind]

theorem shown_ne_nil {kind : TokenKind} {c : Char} {w : Text} : shown kind (c :: w) ≠ [] := by
  by_cases hmark : kind = .comment ∧ c = '#'
  · obtain ⟨rfl, rfl⟩ := hmark
    intro hnil
    have hall := List.dropWhile_eq_nil_iff.mp (List.reverse_eq_nil_iff.mp hnil)
    exact absurd (hall '#' (by simp)) (by decide)
  · have hsame : shown kind (c :: w) = c :: w := by
      simp only [shown, List.head?_cons, Option.some.injEq, if_neg hmark]
    rw [hsame]
    exact List.cons_ne_nil c w

theorem shown_eq_self {stretch : Text} (h : '\r' ∉ stretch) (kind : TokenKind) :
    shown kind stretch = stretch := by
  unfold shown
  split
  · exact Text.dropEndWhile_of_not_mem fun c hc => decide_eq_false fun heq => h (heq ▸ hc)
  · rfl

/-! ### The tokens of pieces -/

/-- What is known of a token by its offsets alone. -/
structure Token.StandsIn (source : Text) (t : Token) : Prop where
  proper : t.start.offset < t.stop.offset
  inside : t.stop.offset ≤ source.length
  start : t.start = placeAt source t.start.offset
  stop : t.stop = placeAt source t.stop.offset
  text : t.text = shown t.kind (source.extract t.start.offset t.stop.offset)

theorem token_standsIn {l : Lexeme} {w : Text} (h : w.length = l.extra) (front : Text)
    (c : Char) (back : Text) :
    (l.token (Position.start.advance front) c w).StandsIn (front ++ (c :: w ++ back)) := by
  have hstart : (l.token (Position.start.advance front) c w).start =
      Position.start.advance front := rfl
  have hstop : (l.token (Position.start.advance front) c w).stop =
      Position.start.advance (front ++ c :: w) := by
    rw [token_stop h, advance_append]
  have hfront : (Position.start.advance front).offset = front.length := by
    rw [advance_start]
  have hend : (Position.start.advance (front ++ c :: w)).offset =
      front.length + (c :: w).length := by
    rw [advance_start, List.length_append]
  constructor
  · rw [hstart, hstop, hfront, hend, List.length_cons]
    omega
  · rw [hstop, hend, List.length_append, List.length_append]
    omega
  · rw [hstart, hfront]
    exact (placeAt_append _ _).symm
  · rw [hstop, hend, ← List.length_append, ← List.append_assoc]
    exact (placeAt_append _ _).symm
  · rw [hstart, hstop, hfront, hend, extract_mid]
    exact text_eq_shown h c

section

variable {front : Text} {before : Option TokenKind} {ps : List Piece}

theorem tokensOf_standsIn (h : Spells before [] ps) :
    ∀ t ∈ tokensOf (Position.start.advance front) ps, t.StandsIn (front ++ textOf ps) := by
  induction ps generalizing front before with
  | nil =>
    intro t ht
    cases ht
  | cons p ps ih =>
    obtain ⟨hp, hps⟩ := h
    have hrest := @ih (front ++ p.text) _ hps
    rw [advance_append, List.append_assoc] at hrest
    cases p with
    | gap c w => exact hrest
    | lexeme c w l =>
      intro t ht
      rcases List.mem_cons.mp ht with rfl | ht
      · exact token_standsIn hp.2.2 front c (textOf ps)
      · exact hrest t ht

theorem start_of_mem_tokensOf {place : Position} {t : Token} (h : t ∈ tokensOf place ps) :
    place.offset ≤ t.start.offset := by
  induction ps generalizing place with
  | nil => cases h
  | cons p ps ih =>
    have hplace := advance_offset place p.text
    cases p with
    | gap c w =>
      have hle := @ih (place.advance (c :: w)) h
      simp only [Piece.text] at hplace
      omega
    | lexeme c w l =>
      rcases List.mem_cons.mp h with rfl | h
      · exact Nat.le_refl _
      · have hle := @ih (place.advance (c :: w)) h
        simp only [Piece.text] at hplace
        omega

theorem tokensOf_ordered (h : Spells before [] ps) (place : Position) :
    (tokensOf place ps).Pairwise fun a b => a.stop.offset ≤ b.start.offset := by
  induction ps generalizing before place with
  | nil => exact .nil
  | cons p ps ih =>
    obtain ⟨hp, hps⟩ := h
    cases p with
    | gap c w => exact ih hps _
    | lexeme c w l =>
      apply List.Pairwise.cons _ (ih hps _)
      intro b hb
      rw [token_stop hp.2.2]
      exact start_of_mem_tokensOf hb

/-- Between the tokens of pieces stand only the gaps among them; `skipped` is what has been
    skipped since the last token. -/
theorem between_skipped {skipped : Text} (h : Spells before [] ps) (hskipped : Skipped skipped) :
    ∀ g ∈ betweenFrom (front ++ (skipped ++ textOf ps)) front.length
      (tokensOf (Position.start.advance (front ++ skipped)) ps), Skipped g := by
  induction ps generalizing front before skipped with
  | nil =>
    intro g hg
    obtain rfl : g = skipped := by
      simpa [tokensOf, betweenFrom, List.extract_eq_take_drop] using hg
    exact hskipped
  | cons p ps ih =>
    obtain ⟨hp, hps⟩ := h
    cases p with
    | gap c w =>
      have hmore := @ih front _ (skipped ++ c :: w) hps (hskipped.append (skipped_gap hp))
      rw [tokensOf, ← advance_append, List.append_assoc, textOf_cons, ← List.append_assoc skipped]
      exact hmore
    | lexeme c w l =>
      have hoffset : (Position.start.advance (front ++ skipped)).offset =
          front.length + skipped.length := by
        rw [advance_start, List.length_append]
      have hnext := @ih (front ++ skipped ++ c :: w) _ [] hps .nil
      rw [tokensOf, betweenFrom]
      intro g hg
      rcases List.mem_cons.mp hg with rfl | hg
      · have hgap : (l.token (Position.start.advance (front ++ skipped)) c w).start.offset =
            front.length + skipped.length := hoffset
        rw [hgap, extract_mid]
        exact hskipped
      · apply hnext g
        rw [token_stop hp.2.2, ← advance_append, advance_offset] at hg
        simpa [Piece.text, Position.start] using hg

end

/-! ### Tilings -/

/-- How the tokens of a scan lie in their source; the end of the file is at `s.stop`. -/
structure Tiling (source : Text) (s : Scan) : Prop where
  ordered : s.tokens.Pairwise fun a b => a.stop.offset ≤ b.start.offset
  nonempty : ∀ t ∈ s.tokens, t.text ≠ [] ∧ t.start.offset < t.stop.offset
  inside : ∀ t ∈ s.tokens, t.stop.offset ≤ source.length
  atEnd : s.stop = placeAt source source.length
  between : ∀ g ∈ betweenFrom source 0 s.tokens, Skipped g
  texts : ∀ t ∈ s.tokens, t.text = shown t.kind (source.extract t.start.offset t.stop.offset)
  starts : ∀ t ∈ s.tokens, t.start = placeAt source t.start.offset
  stops : ∀ t ∈ s.tokens, t.stop = placeAt source t.stop.offset

theorem standsIn_of_scan {source : Text} {s : Scan} (h : scan source = .ok s) :
    ∀ t ∈ s.tokens, t.StandsIn source := by
  obtain ⟨ps, rfl, hspells, htokens⟩ := exists_pieces h
  rw [htokens]
  exact @tokensOf_standsIn [] _ _ hspells

/-- The tokens of every scan tile their source. -/
theorem scan_tiling {source : Text} {s : Scan} (h : scan source = .ok s) : Tiling source s := by
  obtain ⟨ps, rfl, hspells, htokens⟩ := exists_pieces h
  have hscan := scanFrom_textOf hspells Position.start
  obtain rfl : s = ⟨tokensOf Position.start ps, Position.start.advance (textOf ps)⟩ :=
    Except.ok.inj (h.symm.trans hscan)
  have hstands := @tokensOf_standsIn [] _ _ hspells
  constructor
  · exact tokensOf_ordered hspells _
  · intro t ht
    have hproper := (hstands t ht).proper
    refine ⟨?_, hproper⟩
    obtain ⟨c, w, hstretch⟩ : ∃ c w,
        (textOf ps).extract t.start.offset t.stop.offset = c :: w := by
      have hinside := (hstands t ht).inside
      rw [List.nil_append] at hinside
      apply List.exists_cons_of_length_pos
      rw [List.extract_eq_take_drop, List.length_take, List.length_drop]
      omega
    rw [(hstands t ht).text, List.nil_append, hstretch]
    exact shown_ne_nil
  · intro t ht
    exact (hstands t ht).inside
  · have hall := placeAt_append (textOf ps) []
    rw [List.append_nil] at hall
    exact hall.symm
  · exact @between_skipped [] _ _ [] hspells .nil
  · intro t ht
    exact (hstands t ht).text
  · intro t ht
    exact (hstands t ht).start
  · intro t ht
    exact (hstands t ht).stop

/-- Comments, strings of several lines, a sub-expression, and continued lines. -/
theorem scan_tiling_lines :
    ∃ s, scan "\ufeff$x = @'\n a\r\n'@ # b\r\r\n<# c\n#>\x60\r\n  \"$(f \")\n\")\"-7".toList = .ok s ∧
      s.tokens.length = 9 ∧
      Tiling "\ufeff$x = @'\n a\r\n'@ # b\r\r\n<# c\n#>\x60\r\n  \"$(f \")\n\")\"-7".toList s := by
  have hrun : (scan
      "\ufeff$x = @'\n a\r\n'@ # b\r\r\n<# c\n#>\x60\r\n  \"$(f \")\n\")\"-7".toList).toOption.any
      (fun s => s.tokens.length = 9) = true := by
    decide +kernel
  obtain ⟨s, hscan, hlength⟩ := toOption_any.mp hrun
  exact ⟨s, hscan, of_decide_eq_true hlength, scan_tiling hscan⟩

end ScriptModule
