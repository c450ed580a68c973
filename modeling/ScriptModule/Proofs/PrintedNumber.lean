/-
  ScriptModule/Proofs/PrintedNumber.lean
  ======================================
  **Printed integers.**  The decimal text of an integer is one number to the scanner, and
  is read back as the integer, unless it has too many digits to be read.
-/
import Mathlib.Data.List.Basic
import Mathlib.Data.List.TakeWhile
import Mathlib.Tactic.IntervalCases
import ScriptModule.Proofs.Tiling
import ScriptModule.Text.Numeral

namespace ScriptModule

open Unicode

/-! ### Digits -/

namespace Numeral

theorem mem_digits {c : Char} (h : c.isDigit = true) : c ∈ "0123456789".toList := by
  obtain ⟨hlow, hhigh⟩ := Char.isDigit_iff_toNat.mp h
  change 48 ≤ c.toNat at hlow
  change c.toNat ≤ 57 at hhigh
  rw [← Char.ofNat_toNat c]
  interval_cases c.toNat <;> decide

/-- What a plain digit is to the readers of numerals and to the scanner. -/
structure PlainDigit (c : Char) : Prop where
  plain : plainChar c = c
  padding : isPadding c = false
  blank : isBlank c = false
  digit : isDigit c = true
  value : digit? 10 c = some (c.toNat - '0'.toNat)
  special : c ∉ ['_', '-', '+', 'x', 'X', 'o', 'O', 'b', 'B']

theorem plainDigit {c : Char} (h : c.isDigit = true) : PlainDigit c := by
  -- a check of the ten digits, not a bounded quantifier, which could be decided over all characters
  have hall : ("0123456789".toList.all fun c => plainChar c = c ∧ isPadding c = false ∧
      isBlank c = false ∧ isDigit c = true ∧ digit? 10 c = some (c.toNat - '0'.toNat) ∧
      c ∉ ['_', '-', '+', 'x', 'X', 'o', 'O', 'b', 'B']) = true := by
    decide +kernel
  obtain ⟨hplain, hpadding, hblank, hdigit, hvalue, hspecial⟩ :=
    of_decide_eq_true (List.all_eq_true.mp hall c (mem_digits h))
  exact ⟨hplain, hpadding, hblank, hdigit, hvalue, hspecial⟩

/-- A row of plain digits that is short enough to be read. -/
structure DigitRow (t : Text) : Prop where
  ne_nil : t ≠ []
  digits : ∀ c ∈ t, PlainDigit c
  short : t.length ≤ maxDigits

theorem digitRow_ofNat {n : Nat} (h : n < Nat.pow 10 maxDigits) : DigitRow (Text.ofNat n) where
  ne_nil := Nat.toDigits_ne_nil
  digits := fun _ hc => plainDigit (Nat.isDigit_of_mem_toDigits (by decide) (by decide) hc)
  short := by
    have hall : ∀ k, 0 < k → n < Nat.pow 10 k → (Nat.toDigits 10 n).length ≤ k := by
      intro k hk hn
      exact (Nat.length_toDigits_le_iff (by decide) hk).mpr hn
    exact hall maxDigits (by decide) h

/-! ### Reading -/

theorem DigitRow.readDigits {t : Text} (h : DigitRow t) :
    Numeral.readDigits 10 t = some (Nat.ofDigitChars 10 t 0) := by
  have hrow : t.takeWhile (fun c => c = '_' || (digit? 10 c).isSome) = t := by
    rw [List.takeWhile_eq_self_iff]
    intro c hc
    simp [(h.digits c hc).value]
  have hfields : Text.fields '_' t = [t] := by
    apply Text.fieldsBy_of_not_mem
    intro c hc
    rw [beq_eq_false_iff_ne]
    rintro rfl
    exact (h.digits '_' hc).special (by decide)
  have hvalues : t.filterMap (digit? 10) = t.map fun c => c.toNat - '0'.toNat :=
    List.filterMap_eq_map_iff_forall_eq_some.mpr fun c hc => (h.digits c hc).value
  have hne : t.isEmpty = false := by
    rw [List.isEmpty_eq_false_iff]
    exact h.ne_nil
  have hshort := h.short
  simp only [Numeral.readDigits, hrow, hfields, hvalues, List.length_map, List.drop_length,
    ofDigits, List.foldl_map, Nat.ofDigitChars_eq_foldl]
  simp [hne, hshort]

section

variable {read : Text → Option Nat} {t : Text}

theorem DigitRow.map_plainChar (h : DigitRow t) : t.map plainChar = t := by
  rw [List.map_congr_left fun c hc => (h.digits c hc).plain, List.map_id']

theorem DigitRow.readSigned (h : DigitRow t) :
    Numeral.readSigned read t = (read t).map fun n => (n : Int) := by
  obtain ⟨c, r, rfl⟩ := List.exists_cons_of_ne_nil h.ne_nil
  have hc := h.digits c List.mem_cons_self
  have hstart : ((c :: r).map plainChar).dropWhile isPadding = c :: r := by
    rw [h.map_plainChar, List.dropWhile_cons_of_neg (by simp [hc.padding])]
  rw [Numeral.readSigned, hstart]
  split
  · next r' heq =>
    obtain ⟨rfl, -⟩ := List.cons.inj heq
    exact absurd (by decide) hc.special
  · next r' heq =>
    obtain ⟨rfl, -⟩ := List.cons.inj heq
    exact absurd (by decide) hc.special
  · rfl

theorem DigitRow.readSigned_minus (h : DigitRow t) :
    Numeral.readSigned read ('-' :: t) = (read t).map fun n => -(n : Int) := by
  have hstart : (('-' :: t).map plainChar).dropWhile isPadding = '-' :: t := by
    rw [List.map_cons, h.map_plainChar]
    rfl
  rw [Numeral.readSigned, hstart]
  rfl

/-- With a base mark allowed, digits are read alike, or refused for a zero in front. -/
theorem DigitRow.readMarked (h : DigitRow t) :
    Numeral.readMarked t = some (Nat.ofDigitChars 10 t 0) ∨ Numeral.readMarked t = none := by
  have hread := h.readDigits
  unfold Numeral.readMarked
  split
  · next m r =>
    have hm := (h.digits m (by simp)).special
    simp only [List.mem_cons, not_or] at hm
    obtain ⟨-, -, -, hx, hX, ho, hO, hb, hB, -⟩ := hm
    simp only [hx, hX, ho, hO, hb, hB, decide_false, Bool.or_self, Bool.false_eq_true, if_false,
      hread, Option.filter_some]
    split
    · exact .inl rfl
    · exact .inr rfl
  · exact .inl hread

end

/-- A printed integer is read back. -/
theorem readLiteral_ofInt {v : Int} (h : v.natAbs < Nat.pow 10 maxDigits) :
    readLiteral (Text.ofInt v) = some v := by
  have hvalue : ∀ n, Nat.ofDigitChars 10 (Text.ofNat n) 0 = n := by
    intro n
    exact Nat.ofDigitChars_ten_toDigits
  cases v with
  | ofNat n =>
    have hrow : DigitRow (Text.ofNat n) := digitRow_ofNat h
    have hmarked := hrow.readMarked
    have hdigits := hrow.readDigits
    rw [hvalue] at hmarked hdigits
    rw [readLiteral, readInteger, Text.ofInt, hrow.readSigned, hrow.readSigned, hdigits]
    rcases hmarked with hmarked | hmarked
    · rw [hmarked]
      rfl
    · rw [hmarked]
      rfl
  | negSucc n =>
    have hrow : DigitRow (Text.ofNat (n + 1)) := digitRow_ofNat h
    have hmarked := hrow.readMarked
    have hdigits := hrow.readDigits
    rw [hvalue] at hmarked hdigits
    rw [readLiteral, readInteger, Text.ofInt, hrow.readSigned_minus, hrow.readSigned_minus,
      hdigits]
    rcases hmarked with hmarked | hmarked
    · rw [hmarked]
      rfl
    · rw [hmarked]
      rfl

theorem isBlank_of_mem_ofInt {v : Int} (h : v.natAbs < Nat.pow 10 maxDigits) :
    ∀ c ∈ Text.ofInt v, isBlank c = false := by
  intro c hc
  cases v with
  | ofNat n => exact ((digitRow_ofNat h).digits c hc).blank
  | negSucc n =>
    rcases List.mem_cons.mp hc with rfl | hc
    · decide
    · exact ((digitRow_ofNat h).digits c hc).blank

/-! ### Rows of decimal digits -/

theorem ofDigits_lt {base : Nat} {ds : List Nat} (h : ∀ d ∈ ds, d < base) :
    ofDigits base ds < base ^ ds.length := by
  have hfold : ∀ n, ds.foldl (fun n d => base * n + d) n < (n + 1) * base ^ ds.length := by
    induction ds with
    | nil =>
      intro n
      simp
    | cons d ds ih =>
      intro n
      rw [List.forall_mem_cons] at h
      have hstep : base * n + d + 1 ≤ (n + 1) * base := by
        have hd := h.1
        rw [Nat.add_mul, Nat.one_mul, Nat.mul_comm n base]
        omega
      calc (ds.foldl (fun n d => base * n + d) (base * n + d))
          < (base * n + d + 1) * base ^ ds.length := ih h.2 _
        _ ≤ (n + 1) * base * base ^ ds.length := Nat.mul_le_mul_right _ hstep
        _ = (n + 1) * base ^ (ds.length + 1) := by rw [Nat.mul_assoc, Nat.pow_succ']
  have hstart := hfold 0
  rwa [Nat.zero_add, Nat.one_mul] at hstart

theorem decimalValue?_lt {c : Char} {d : Nat} (h : decimalValue? c = some d) : d < 10 := by
  unfold decimalValue? at h
  split at h
  · split at h
    · next hdigit =>
      obtain ⟨-, hhigh⟩ := Char.isDigit_iff_toNat.mp hdigit
      change c.toNat ≤ 57 at hhigh
      cases h
      omega
    · cases h
  · obtain ⟨r, -, rfl⟩ := Option.map_eq_some_iff.mp h
    exact Nat.mod_lt _ (by decide)

/-- A number that was read can be printed. -/
theorem readDecimal_lt {t : Text} {n : Nat} (h : readDecimal t = .ok n) :
    n < Nat.pow 10 maxDigits := by
  unfold readDecimal at h
  simp only at h
  split at h
  · cases h
  · next hlong =>
    split at h
    · cases h
    · cases h
      have hdigits : ∀ d ∈ (t.takeWhile isDecimal).filterMap decimalValue?, d < 10 := by
        intro d hd
        obtain ⟨c, -, hc⟩ := List.mem_filterMap.mp hd
        exact decimalValue?_lt hc
      have hlength := (List.length_filterMap_le decimalValue? (t.takeWhile isDecimal)).trans
        (Nat.not_lt.mp hlong)
      have hpow : ∀ {j k}, j ≤ k → Nat.pow 10 j ≤ Nat.pow 10 k :=
        fun hle => Nat.pow_le_pow_right (by decide) hle
      exact (ofDigits_lt hdigits).trans_le (hpow hlength)

theorem decimalValue?_of_isDigit {c : Char} (h : c.isDigit = true) :
    decimalValue? c = some (c.toNat - '0'.toNat) := by
  obtain ⟨-, hhigh⟩ := Char.isDigit_iff_toNat.mp h
  have hlow : c.toNat < 128 := Nat.lt_of_le_of_lt hhigh (by decide)
  rw [decimalValue?, if_pos hlow, if_pos h]
  rfl

/-- A printed number is read back. -/
theorem readDecimal_ofNat {n : Nat} (h : n < Nat.pow 10 maxDigits) :
    readDecimal (Text.ofNat n) = .ok n := by
  have hvalue : ∀ c ∈ Text.ofNat n, decimalValue? c = some (c.toNat - '0'.toNat) := by
    intro c hc
    exact decimalValue?_of_isDigit (Nat.isDigit_of_mem_toDigits (by decide) (by decide) hc)
  have hrow : (Text.ofNat n).takeWhile isDecimal = Text.ofNat n := by
    rw [List.takeWhile_eq_self_iff]
    intro c hc
    simp [isDecimal, hvalue c hc]
  have hvalues : (Text.ofNat n).filterMap decimalValue? =
      (Text.ofNat n).map fun c => c.toNat - '0'.toNat :=
    List.filterMap_eq_map_iff_forall_eq_some.mpr hvalue
  have hread : ofDigits 10 ((Text.ofNat n).map fun c => c.toNat - '0'.toNat) = n := by
    rw [ofDigits, List.foldl_map, ← Nat.ofDigitChars_eq_foldl]
    exact Nat.ofDigitChars_ten_toDigits
  unfold readDecimal
  rw [hrow, if_neg (Nat.not_lt.mpr (digitRow_ofNat h).short), if_neg (Nat.lt_irrefl _), hvalues,
    hread]

end Numeral

/-! ### Scanning -/

namespace Lexeme

theorem numberLength_digits {first : Char} {w rest : Text}
    (hw : ∀ c ∈ w, Numeral.PlainDigit c) (hrest : StartsLine rest) :
    numberLength first (w ++ rest) = w.length := by
  obtain ⟨r, rfl⟩ := hrest
  have hmark : ∀ m, m = 'x' ∨ m = 'X' → ∀ s, w ++ '\n' :: r ≠ m :: s := by
    intro m hm s heq
    cases w with
    | nil =>
      obtain ⟨rfl, -⟩ := List.cons.inj heq
      rcases hm with hm | hm <;> cases hm
    | cons c w =>
      obtain ⟨rfl, -⟩ := List.cons.inj heq
      have hspecial := (hw _ List.mem_cons_self).special
      rcases hm with rfl | rfl <;> exact absurd (by decide) hspecial
  have hdigits : digitsLength first (w ++ '\n' :: r) = w.length :=
    digitsLength_append (fun c hc => (hw c hc).digit) rfl (hmark 'x' (.inl rfl))
      (hmark 'X' (.inr rfl))
  rw [numberLength, hdigits, List.drop_left]
  rfl

theorem gapLength_of_isDigit {c : Char} (h : isDigit c = true) (r : Text) :
    gapLength (c :: r) = 0 := by
  have hbacktick : c ≠ '\x60' := by
    rintro rfl
    exact absurd h (by decide)
  have hgap : isGap c ≠ true := by
    intro hgap
    simp only [isGap, Bool.or_eq_true, decide_eq_true_eq] at hgap
    rcases hgap with (((((rfl | rfl) | rfl) | rfl) | rfl) | rfl) | rfl <;>
      exact absurd h (by decide +kernel)
  rw [gapLength_of_ne hbacktick, if_neg hgap]

theorem read_of_isDigit {c : Char} (h : isDigit c = true) (sign : Bool) (r : Text) :
    read sign c r = .ok ⟨.number, numberLength c r, none⟩ := by
  have hplain : plain c r = ⟨.number, numberLength c r, none⟩ := if_pos h
  rw [← hplain]
  exact (Reads.plain (startsPlain_of (by decide +kernel) h r)).read_eq

end Lexeme

/-- In front of a line end a printed integer is one number, where a sign may stand. -/
theorem fits_ofInt {v : Int} (h : v.natAbs < Nat.pow 10 maxDigits) {c : Char} {w rest : Text}
    (htext : Text.ofInt v = c :: w) (hrest : StartsLine rest) :
    (Piece.lexeme c w ⟨.number, w.length, none⟩).Fits true rest := by
  cases v with
  | ofNat n =>
    have hrow : Numeral.DigitRow (c :: w) := htext ▸ Numeral.digitRow_ofNat h
    have hfirst := (hrow.digits c List.mem_cons_self).digit
    have hlength := @Lexeme.numberLength_digits c w rest
      (fun d hd => hrow.digits d (List.mem_cons_of_mem c hd)) hrest
    refine ⟨Lexeme.gapLength_of_isDigit hfirst _, ?_, rfl⟩
    rw [Lexeme.read_of_isDigit hfirst, hlength]
  | negSucc n =>
    obtain ⟨rfl, rfl⟩ := List.cons.inj htext
    have hrow : Numeral.DigitRow (Text.ofNat (n + 1)) := Numeral.digitRow_ofNat h
    obtain ⟨d, ds, hds⟩ := List.exists_cons_of_ne_nil hrow.ne_nil
    rw [hds] at hrow ⊢
    have hfirst := (hrow.digits d List.mem_cons_self).digit
    have hlength := @Lexeme.numberLength_digits d ds rest
      (fun e he => hrow.digits e (List.mem_cons_of_mem d he)) hrest
    refine ⟨rfl, ?_, rfl⟩
    change Except.ok (Lexeme.dash true (d :: (ds ++ rest))) = _
    rw [Lexeme.dash, hfirst, hlength, List.length_cons, Nat.add_comm]
    rfl

end ScriptModule
