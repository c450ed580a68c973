/-
  ScriptModule/Proofs/PrintedVersion.lean
  =======================================
  **Printed versions.**  A version that can be read is made of digits, dots and blanks.  Its
  first two numbers are short enough to be printed, and a printed pair is one number to the
  scanner and is read back.
-/
import ScriptModule.Merge.Requirement
import ScriptModule.Outcome
import ScriptModule.Proofs.BareValue
import ScriptModule.Proofs.PrintedNumber

namespace ScriptModule.Version

open Lexeme Unicode

/-! ### Readable versions -/

theorem read?_eq_ok {t : Text} {v : List Nat} (h : read? t = .ok (some v)) :
    (∀ p ∈ Text.fields '.' (Text.trim t), isNumber p = true) ∧
      (Text.fields '.' (Text.trim t)).mapM Numeral.readDecimal = .ok v := by
  unfold read? at h
  simp only at h
  split at h
  · next hnumbers =>
    obtain ⟨u, hu, huv⟩ := map_eq_ok h
    cases huv
    exact ⟨List.all_eq_true.mp hnumbers, hu⟩
  · cases h

/-- A version that can be read is made of digits, dots and blanks. -/
theorem chars_of_read? {t : Text} {v : List Nat} (h : read? t = .ok (some v)) :
    ∀ c ∈ t, isBlank c = true ∨ c = '.' ∨ isDigit c = true := by
  intro c hc
  by_cases hblank : isBlank c = true
  · exact .inl hblank
  · by_cases hdot : c = '.'
    · exact .inr (.inl hdot)
    · have htrim := Text.mem_trim hc (Bool.eq_false_iff.mpr hblank)
      obtain ⟨p, hp, hcp⟩ := Text.exists_field htrim (p := (· == '.')) (by simpa using hdot)
      have hnumber := (read?_eq_ok h).1 p hp
      rw [isNumber, Bool.and_eq_true] at hnumber
      exact .inr (.inr (List.all_eq_true.mp hnumber.2 c hcp))

theorem no_quote_of_read? {t : Text} {v : List Nat} (h : read? t = .ok (some v)) :
    '\'' ∉ t := by
  intro hmem
  rcases chars_of_read? h '\'' hmem with hquote | hquote | hquote
  · exact absurd hquote (by decide)
  · exact absurd hquote (by decide)
  · exact absurd hquote (by decide)

/-! ### Pairs of numbers -/

theorem lt_of_mem_mapM {ps : List Text} {v : List Nat} (h : ps.mapM Numeral.readDecimal = .ok v) :
    ∀ n ∈ v, n < Nat.pow 10 maxDigits := by
  induction ps generalizing v with
  | nil =>
    cases h
    exact List.forall_mem_nil _
  | cons p ps ih =>
    rw [List.mapM_cons] at h
    obtain ⟨n, hn, h⟩ := bind_eq_ok.mp h
    obtain ⟨ns, hns, h⟩ := bind_eq_ok.mp h
    cases h
    exact List.forall_mem_cons.mpr ⟨Numeral.readDecimal_lt hn, ih hns⟩

/-- Whether both numbers of a pair can be printed. -/
structure IsShort (v : Nat × Nat) : Prop where
  major : v.1 < Nat.pow 10 maxDigits
  minor : v.2 < Nat.pow 10 maxDigits

theorem isShort_majorMinor {t : Text} {v : List Nat} (h : read? t = .ok (some v)) :
    IsShort (Requirement.majorMinor v) := by
  have hall := lt_of_mem_mapM (read?_eq_ok h).2
  have hpos : ∀ k, 0 < Nat.pow 10 k := fun k => Nat.pow_pos (by decide)
  have hget : ∀ {ns : List Nat}, (∀ n ∈ ns, n < Nat.pow 10 maxDigits) →
      ns.head?.getD 0 < Nat.pow 10 maxDigits := by
    intro ns hns
    cases ns with
    | nil => exact hpos maxDigits
    | cons n ns => exact hns n List.mem_cons_self
  constructor
  · exact hget hall
  · apply hget
    intro n hn
    exact hall n (List.mem_of_mem_drop hn)

/-- A pair of numbers as it stands in a requirement comment. -/
def print (v : Nat × Nat) : Text := Text.ofNat v.1 ++ ['.'] ++ Text.ofNat v.2

/-- A printed pair is read back. -/
theorem read?_print {v : Nat × Nat} (h : IsShort v) : read? (print v) = .ok (some [v.1, v.2]) := by
  obtain ⟨major, minor⟩ := v
  have hmajor := Numeral.digitRow_ofNat h.major
  have hminor := Numeral.digitRow_ofNat h.minor
  have hdot : ∀ {c : Char}, Numeral.PlainDigit c → (c == '.') = false := by
    intro c hc
    rw [beq_eq_false_iff_ne]
    rintro rfl
    exact absurd hc.digit (by decide)
  have htrim : Text.trim (print (major, minor)) = print (major, minor) := by
    apply Text.trim_of_not_blank
    intro c hc
    rw [print, List.append_assoc, List.singleton_append, List.mem_append, List.mem_cons] at hc
    rcases hc with hc | rfl | hc
    · exact (hmajor.digits c hc).blank
    · decide
    · exact (hminor.digits c hc).blank
  have hfields : Text.fields '.' (print (major, minor)) = [Text.ofNat major, Text.ofNat minor] := by
    rw [print, List.append_assoc, List.singleton_append, Text.fields,
      Text.fieldsBy_append (fun c hc => hdot (hmajor.digits c hc)) (beq_self_eq_true '.'),
      Text.fieldsBy_of_not_mem fun c hc => hdot (hminor.digits c hc)]
  have hnumber : ∀ {n : Nat}, Numeral.DigitRow (Text.ofNat n) → isNumber (Text.ofNat n) = true := by
    intro n hn
    rw [isNumber, Bool.and_eq_true, Bool.not_eq_true', List.isEmpty_eq_false_iff]
    exact ⟨hn.ne_nil, List.all_eq_true.mpr fun c hc => (hn.digits c hc).digit⟩
  rw [read?, htrim, hfields]
  simp [hnumber hmajor, hnumber hminor, Numeral.readDecimal_ofNat h.major,
    Numeral.readDecimal_ofNat h.minor, List.mapM_cons, bind, Except.bind, pure, Except.pure,
    Except.map]

/-! ### Scanning -/

theorem numberLength_print {c : Char} {a b : Text} (ha : Numeral.DigitRow (c :: a))
    (hb : Numeral.DigitRow b) : numberLength c (a ++ '.' :: b) = (a ++ '.' :: b).length := by
  have hdigits : ∀ d ∈ a, Unicode.isDigit d = true := by
    intro d hd
    exact (ha.digits d (List.mem_cons_of_mem c hd)).digit
  have hmark : ∀ m, m = 'x' ∨ m = 'X' → ∀ s, a ++ '.' :: b ≠ m :: s := by
    intro m hm s heq
    cases a with
    | nil =>
      obtain ⟨rfl, -⟩ := List.cons.inj heq
      rcases hm with hm | hm <;> cases hm
    | cons d a =>
      obtain ⟨rfl, -⟩ := List.cons.inj heq
      have hspecial := (ha.digits d (by simp)).special
      rcases hm with rfl | rfl <;> exact absurd (by decide) hspecial
  have hstarts : startsWith Unicode.isDigit b = true := by
    obtain ⟨d, t, rfl⟩ := List.exists_cons_of_ne_nil hb.ne_nil
    exact (hb.digits d List.mem_cons_self).digit
  have hrun : runLength Unicode.isDigit b = b.length := by
    have hall : runLength Unicode.isDigit (b ++ []) = b.length :=
      runLength_append_eq.mpr ⟨fun d hd => (hb.digits d hd).digit, rfl⟩
    rwa [List.append_nil] at hall
  have hfraction : fractionLength ('.' :: b) = b.length + 1 := by
    rw [fractionLength, if_pos hstarts, hrun, Nat.add_comm]
  have hstop : Stops Unicode.isDigit ('.' :: b) := rfl
  have hlength : digitsLength c (a ++ '.' :: b) = (a ++ '.' :: b).length := by
    rw [digitsLength_append hdigits hstop (hmark 'x' (.inl rfl)) (hmark 'X' (.inr rfl)), hfraction,
      List.length_append, List.length_cons]
  rw [numberLength, hlength, List.drop_length]
  rfl

/-- A printed pair is one number. -/
theorem isBareRow_print {v : Nat × Nat} (h : IsShort v) :
    ∃ qs, textOf qs = print v ∧ IsBareRow qs := by
  have hmajor := Numeral.digitRow_ofNat h.major
  have hminor := Numeral.digitRow_ofNat h.minor
  obtain ⟨c, a, ha⟩ := List.exists_cons_of_ne_nil hmajor.ne_nil
  rw [ha] at hmajor
  have hprint : print v = c :: (a ++ '.' :: Text.ofNat v.2) := by
    rw [print, ha, List.append_assoc]
    rfl
  refine ⟨[Piece.whole .number (print v)], ?_, ?_⟩
  · rw [hprint, textOf_cons, Piece.text_whole (List.cons_ne_nil _ _), textOf_nil, List.append_nil]
  · rw [hprint]
    apply isBareRow_of_spells (List.cons_ne_nil _ _)
    · rw [List.forall_mem_singleton]
      exact .intro rfl
    · have hdigit := (hmajor.digits c List.mem_cons_self).digit
      refine ⟨⟨gapLength_of_isDigit hdigit _, ?_, rfl⟩, trivial⟩
      change Lexeme.read _ c ((a ++ '.' :: Text.ofNat v.2) ++ []) = _
      rw [read_of_isDigit hdigit, List.append_nil, numberLength_print hmajor hminor]
      rfl

end ScriptModule.Version
