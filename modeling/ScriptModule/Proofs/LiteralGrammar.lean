/-
  ScriptModule/Proofs/LiteralGrammar.lean
  =======================================
  **Which texts are integer literals.**  The grammar of the literals, with a value for every
  text of it, and its equivalence with the reader.  The reader takes more than decimal and
  `0x` literals: underscores between digits, the marks `0o` and `0b`, and decimal digits of
  every script.
-/
import ScriptModule.Proofs.PrintedNumber

namespace ScriptModule.Numeral

open Unicode

/-! ### The grammar -/

/-- What integer literals are made of. -/
structure Convention where
  digit? : Nat → Char → Option Nat      -- the value of a character as a digit of a base
  spaced : Bool                         -- whether an underscore may stand in front of a digit
  marks : List (Char × Nat)             -- what stands behind a zero, and the base it announces

/-- Decimal and hexadecimal literals. -/
def documented : Convention where
  digit? := digit?
  spaced := false
  marks := [('x', 16), ('X', 16)]

def allMarks : List (Char × Nat) :=
  [('x', 16), ('X', 16), ('o', 8), ('O', 8), ('b', 2), ('B', 2)]

/-- What is read, when the digits of all scripts have been replaced by the common ones. -/
def folded : Convention where
  digit? := digit?
  spaced := true
  marks := allMarks

/-- What is read. -/
def accepted : Convention where
  digit? := fun base c => digit? base (plainChar c)
  spaced := true
  marks := allMarks

namespace Convention

/-- A row of digits, with their number and its value. -/
inductive Row (k : Convention) (base : Nat) : Text → Nat → Nat → Prop where
  | last {c : Char} {d : Nat} : k.digit? base c = some d → Row k base [c] 1 d
  | cons {c : Char} {d n v : Nat} {t : Text} : k.digit? base c = some d → Row k base t n v →
      Row k base (c :: t) (n + 1) (d * base ^ n + v)
  | spaced {c : Char} {d n v : Nat} {t : Text} : k.spaced = true → k.digit? base c = some d →
      Row k base t n v → Row k base (c :: '_' :: t) (n + 1) (d * base ^ n + v)

/-- A literal without a sign, with its value. -/
inductive Unsigned (k : Convention) : Text → Nat → Prop where
  | decimal {t : Text} {n v : Nat} : k.Row 10 t n v → n ≤ maxDigits → Unsigned k t v
  | marked {z m : Char} {base n v : Nat} {t : Text} : k.digit? 10 z = some 0 →
      (m, base) ∈ k.marks → k.Row base t n v → Unsigned k (z :: m :: t) v
  | spaced {z m : Char} {base n v : Nat} {t : Text} : k.spaced = true →
      k.digit? 10 z = some 0 → (m, base) ∈ k.marks → k.Row base t n v →
      Unsigned k (z :: m :: '_' :: t) v

/-- A literal, with its value. -/
inductive Signed (k : Convention) : Text → Int → Prop where
  | bare {t : Text} {v : Nat} : k.Unsigned t v → Signed k t v
  | plus {t : Text} {v : Nat} : k.Unsigned t v → Signed k ('+' :: t) v
  | minus {t : Text} {v : Nat} : k.Unsigned t v → Signed k ('-' :: t) (-v)

/-- Whether what one convention reads in a text is read alike by another. -/
structure Carries (k k' : Convention) (t : Text) : Prop where
  digits : ∀ c ∈ t, ∀ base d, k.digit? base c = some d → k'.digit? base c = some d
  spaces : '_' ∈ t → k.spaced = true → k'.spaced = true
  marks : ∀ m ∈ t[1]?, ∀ base, (m, base) ∈ k.marks → (m, base) ∈ k'.marks

variable {k k' : Convention} {base n v : Nat} {t : Text}

theorem Row.carry (h : k.Row base t n v)
    (hdigits : ∀ c ∈ t, ∀ base d, k.digit? base c = some d → k'.digit? base c = some d)
    (hspaces : '_' ∈ t → k.spaced = true → k'.spaced = true) : k'.Row base t n v := by
  induction h with
  | last hd =>
    apply Row.last
    exact hdigits _ List.mem_cons_self _ _ hd
  | cons hd _ ih =>
    apply Row.cons
    · exact hdigits _ List.mem_cons_self _ _ hd
    · apply ih
      · intro c hc
        exact hdigits c (List.mem_cons_of_mem _ hc)
      · intro hc
        exact hspaces (List.mem_cons_of_mem _ hc)
  | spaced hs hd _ ih =>
    apply Row.spaced
    · exact hspaces (by simp) hs
    · exact hdigits _ List.mem_cons_self _ _ hd
    · apply ih
      · intro c hc
        exact hdigits c (List.mem_cons_of_mem _ (List.mem_cons_of_mem _ hc))
      · intro _
        exact hspaces (by simp)

theorem Unsigned.carry (h : k.Unsigned t v) (hk : k.Carries k' t) : k'.Unsigned t v := by
  obtain ⟨hdigits, hspaces, hmarks⟩ := hk
  cases h with
  | decimal hrow hn => exact .decimal (hrow.carry hdigits hspaces) hn
  | marked hz hm hrow =>
    apply Unsigned.marked
    · exact hdigits _ List.mem_cons_self _ _ hz
    · exact hmarks _ rfl _ hm
    · apply hrow.carry
      · intro c hc
        exact hdigits c (by simp [hc])
      · intro hc
        exact hspaces (by simp [hc])
  | spaced hs hz hm hrow =>
    apply Unsigned.spaced
    · exact hspaces (by simp) hs
    · exact hdigits _ List.mem_cons_self _ _ hz
    · exact hmarks _ rfl _ hm
    · apply hrow.carry
      · intro c hc
        exact hdigits c (by simp [hc])
      · intro _
        exact hspaces (by simp)

end Convention

/-! ### Digits -/

section

variable {base d : Nat} {c : Char}

theorem toNat_lt_of_digit? (h : digit? base c = some d) : c.toNat < 127 := by
  simp only [digit?, Option.filter_eq_some_iff] at h
  obtain ⟨h, -⟩ := h
  split at h
  · next hc =>
    obtain ⟨-, hhigh⟩ := Char.isDigit_iff_toNat.mp hc
    exact Nat.lt_of_le_of_lt hhigh (by decide)
  · split at h
    · next hc =>
      obtain ⟨-, hhigh⟩ := Bool.and_eq_true_iff.mp hc
      have hcode := UInt32.le_iff_toNat_le.mp (of_decide_eq_true hhigh)
      exact Nat.lt_of_le_of_lt hcode (by decide)
    · split at h
      · next hc =>
        obtain ⟨-, hhigh⟩ := of_decide_eq_true hc
        exact Nat.lt_of_le_of_lt (UInt32.le_iff_toNat_le.mp hhigh) (by decide)
      · cases h

theorem plainChar_of_lt (h : c.toNat < 127) : plainChar c = c := by
  rw [plainChar, if_pos h]

theorem digit?_underscore (base : Nat) : digit? base '_' = none := rfl

/-- A character stays as it is, or becomes white space, a digit or a mistake. -/
theorem plainChar_cases (c : Char) : c.toNat < 127 ∧ plainChar c = c ∨
    127 ≤ c.toNat ∧ isBlank c = true ∧ plainChar c = ' ' ∨
    127 ≤ c.toNat ∧ plainChar c ∈ "0123456789?".toList := by
  by_cases hlow : c.toNat < 127
  · exact .inl ⟨hlow, plainChar_of_lt hlow⟩
  have hhigh := Nat.not_lt.mp hlow
  unfold plainChar
  rw [if_neg hlow]
  split
  · next hblank => exact .inr (.inl ⟨hhigh, hblank, rfl⟩)
  · refine .inr (.inr ⟨hhigh, ?_⟩)
    split
    · next e he =>
      have hten := decimalValue?_lt he
      interval_cases e <;> decide
    · decide

/-- Signs, marks and the underscore come from nothing but themselves. -/
theorem plainChar_eq_iff {m : Char} (hm : m ∈ "_+-xXoObB".toList) : plainChar c = m ↔ c = m := by
  have hlow : m.toNat < 127 := by
    have hall : ("_+-xXoObB".toList.all fun m => m.toNat < 127) = true := by decide
    exact of_decide_eq_true (List.all_eq_true.mp hall m hm)
  constructor
  · intro h
    rcases plainChar_cases c with ⟨-, hsame⟩ | ⟨-, -, hspace⟩ | ⟨-, hdigit⟩
    · rw [← hsame, h]
    · rw [← h, hspace] at hm
      exact absurd hm (by decide)
    · rw [h] at hdigit
      have hall : ("_+-xXoObB".toList.all fun m => m ∉ "0123456789?".toList) = true := by decide
      exact absurd hdigit (of_decide_eq_true (List.all_eq_true.mp hall m hm))
  · rintro rfl
    exact plainChar_of_lt hlow

/-- Padding around a literal comes from white space. -/
theorem isBlank_of_isPadding (h : isPadding (plainChar c) = true) : isBlank c = true := by
  rcases plainChar_cases c with ⟨-, hsame⟩ | ⟨-, hblank, -⟩ | ⟨-, hdigit⟩
  · rw [hsame] at h
    simp only [isPadding, Bool.or_eq_true, decide_eq_true_eq] at h
    rcases h with ((((rfl | rfl) | rfl) | rfl) | rfl) | rfl <;> decide
  · exact hblank
  · have hall : ("0123456789?".toList.all fun c => isPadding c = false) = true := by decide
    rw [of_decide_eq_true (List.all_eq_true.mp hall _ hdigit)] at h
    cases h

theorem digit?_plainChar (h : c.toNat < 128) : digit? base (plainChar c) = digit? base c := by
  by_cases hlow : c.toNat < 127
  · rw [plainChar_of_lt hlow]
  · -- the last character below 128 is no digit, and becomes none
    obtain rfl : c = '\x7f' := by
      apply Char.toNat_inj.mp
      change c.toNat = 127
      omega
    rfl

end

/-! ### Rows of digits -/

theorem ofDigits_cons (base d : Nat) (ds : List Nat) :
    ofDigits base (d :: ds) = d * base ^ ds.length + ofDigits base ds := by
  have hfold : ∀ n, ds.foldl (fun n d => base * n + d) n =
      n * base ^ ds.length + ofDigits base ds := by
    induction ds with
    | nil =>
      intro n
      simp [ofDigits]
    | cons e es ih =>
      intro n
      have hfirst : ofDigits base (e :: es) = e * base ^ es.length + ofDigits base es := by
        rw [← ih]
        simp [ofDigits]
      rw [List.foldl_cons, ih, hfirst, List.length_cons, Nat.pow_succ', Nat.add_mul,
        Nat.mul_comm base n, Nat.mul_assoc, Nat.add_assoc]
  rw [← hfold]
  simp [ofDigits]

/-- The reader's test of where underscores stand: in front of every digit but the first. -/
def IsSpaced (t : Text) : Prop := ∀ f ∈ Text.fields '_' t, f ≠ []

theorem isSpaced_single {c : Char} (h : c ≠ '_') : IsSpaced [c] := by
  have hfields : Text.fields '_' [c] = [[c]] := Text.fieldsBy_of_not_mem (by simpa using h)
  rw [IsSpaced, hfields]
  simp

theorem not_isSpaced_underscore (t : Text) : ¬ IsSpaced ('_' :: t) := by
  intro h
  exact h [] (by simp [Text.fields, Text.fieldsBy]) rfl

theorem isSpaced_cons {c d : Char} {t : Text} (hc : c ≠ '_') (hd : d ≠ '_') :
    IsSpaced (c :: d :: t) ↔ IsSpaced (d :: t) := by
  have hfields : ∃ f fs, Text.fields '_' (d :: t) = (d :: f) :: fs ∧
      Text.fields '_' (c :: d :: t) = (c :: d :: f) :: fs := by
    simp only [Text.fields, Text.fieldsBy, beq_iff_eq, hc, hd, if_false]
    split <;> exact ⟨_, _, rfl, rfl⟩
  obtain ⟨f, fs, hshort, hlong⟩ := hfields
  rw [IsSpaced, IsSpaced, hshort, hlong]
  simp

theorem isSpaced_spaced {c : Char} {t : Text} (hc : c ≠ '_') :
    IsSpaced (c :: '_' :: t) ↔ IsSpaced t := by
  have hfields : Text.fields '_' (c :: '_' :: t) = [c] :: Text.fields '_' t :=
    @Text.fieldsBy_append (· == '_') [c] t '_' (by simpa using hc) rfl
  rw [IsSpaced, IsSpaced, hfields]
  simp

section

variable {base d n v : Nat} {c : Char} {t : Text}

theorem ne_underscore_of_digit? (h : digit? base c = some d) : c ≠ '_' := by
  rintro rfl
  rw [digit?_underscore] at h
  cases h

/-- What the reader finds in a row. -/
structure IsRow (base : Nat) (t : Text) (n v : Nat) : Prop where
  chars : ∀ c ∈ t, c = '_' ∨ (digit? base c).isSome
  spaced : IsSpaced t
  count : (t.filterMap (digit? base)).length = n
  value : ofDigits base (t.filterMap (digit? base)) = v

theorem isRow_of_row (h : folded.Row base t n v) : IsRow base t n v := by
  induction h with
  | @last c d hd =>
    change digit? base c = some d at hd
    constructor
    · simp [hd]
    · exact isSpaced_single (ne_underscore_of_digit? hd)
    · simp [hd]
    · simp [hd, ofDigits]
  | @cons c d n v t hd hrow ih =>
    change digit? base c = some d at hd
    constructor
    · rw [List.forall_mem_cons, hd]
      exact ⟨.inr rfl, ih.chars⟩
    · have hc := ne_underscore_of_digit? hd
      cases hrow with
      | last he => exact (isSpaced_cons hc (ne_underscore_of_digit? he)).mpr ih.spaced
      | cons he _ => exact (isSpaced_cons hc (ne_underscore_of_digit? he)).mpr ih.spaced
      | spaced _ he _ => exact (isSpaced_cons hc (ne_underscore_of_digit? he)).mpr ih.spaced
    · rw [List.filterMap_cons_some hd, List.length_cons, ih.count]
    · rw [List.filterMap_cons_some hd, ofDigits_cons, ih.count, ih.value]
  | @spaced c d n v t _ hd _ ih =>
    change digit? base c = some d at hd
    have hskip : ('_' :: t).filterMap (digit? base) = t.filterMap (digit? base) :=
      List.filterMap_cons_none (digit?_underscore base)
    constructor
    · rw [List.forall_mem_cons, List.forall_mem_cons, hd]
      exact ⟨.inr rfl, .inl rfl, ih.chars⟩
    · exact (isSpaced_spaced (ne_underscore_of_digit? hd)).mpr ih.spaced
    · rw [List.filterMap_cons_some hd, List.length_cons, hskip, ih.count]
    · rw [List.filterMap_cons_some hd, ofDigits_cons, hskip, ih.count, ih.value]

/-- A text of digits and underscores, each in front of a digit that is not the first, is a row. -/
theorem exists_row {base : Nat} : ∀ {t : Text}, (∀ c ∈ t, c = '_' ∨ (digit? base c).isSome) →
    IsSpaced t → ∃ n v, folded.Row base t n v
  | [], _, hspaced => absurd rfl (hspaced [] (by simp [Text.fields, Text.fieldsBy]))
  | [c], hchars, hspaced => by
    rcases hchars c List.mem_cons_self with rfl | hdigit
    · exact absurd hspaced (not_isSpaced_underscore [])
    · obtain ⟨d, hd⟩ := Option.isSome_iff_exists.mp hdigit
      exact ⟨1, d, .last hd⟩
  | c :: e :: t, hchars, hspaced => by
    rw [List.forall_mem_cons] at hchars
    obtain ⟨rfl | hdigit, hchars⟩ := hchars
    · exact absurd hspaced (not_isSpaced_underscore _)
    obtain ⟨d, hd⟩ := Option.isSome_iff_exists.mp hdigit
    have hc := ne_underscore_of_digit? hd
    by_cases he : e = '_'
    · subst he
      obtain ⟨n, v, hrow⟩ := exists_row (fun c hc => hchars c (List.mem_cons_of_mem _ hc))
        ((isSpaced_spaced hc).mp hspaced)
      exact ⟨n + 1, _, .spaced rfl hd hrow⟩
    · obtain ⟨n, v, hrow⟩ := exists_row hchars ((isSpaced_cons hc he).mp hspaced)
      exact ⟨n + 1, _, .cons hd hrow⟩

theorem row_iff : folded.Row base t n v ↔ IsRow base t n v := by
  constructor
  · exact isRow_of_row
  · intro h
    obtain ⟨m, w, hrow⟩ := exists_row h.chars h.spaced
    have hsame := isRow_of_row hrow
    rwa [← h.count, ← h.value, hsame.count, hsame.value]

theorem takeWhile_of_padding {p : Char → Bool} (hend : ∀ c ∈ t.getLast?, isPadding c = false)
    (h : (t.drop (t.takeWhile p).length).all isPadding = true) : t.takeWhile p = t := by
  have hrest : t.drop (t.takeWhile p).length = [] := by
    rcases List.eq_nil_or_concat' (t.drop (t.takeWhile p).length) with hnil | ⟨front, c, hrest⟩
    · exact hnil
    · have hlast : t.getLast? = some c := by
        rw [← List.take_append_drop (t.takeWhile p).length t, hrest, ← List.append_assoc]
        exact List.getLast?_concat
      have hpadding := List.all_eq_true.mp h c (by simp [hrest])
      rw [hend c hlast] at hpadding
      cases hpadding
  exact (List.takeWhile_prefix p).eq_of_length_le (List.drop_eq_nil_iff.mp hrest)

/-- Behind a row only padding may stand; a text without padding at its end is the row. -/
theorem readDigits_eq_some_iff (hend : ∀ c ∈ t.getLast?, isPadding c = false) :
    readDigits base t = some v ↔ ∃ n, folded.Row base t n v ∧ (base = 10 → n ≤ maxDigits) := by
  unfold readDigits
  simp only [row_iff]
  constructor
  · intro h
    obtain ⟨hread, hvalue⟩ := Option.ite_none_right_eq_some.mp h
    simp only [Bool.and_eq_true] at hread
    obtain ⟨⟨hspaced, hpadding⟩, hcount⟩ := hread
    have hrow := takeWhile_of_padding hend hpadding
    rw [hrow] at hspaced hcount hvalue
    refine ⟨_, ⟨?_, ?_, rfl, Option.some.inj hvalue⟩, ?_⟩
    · intro c hc
      rw [← hrow] at hc
      simpa using List.mem_takeWhile_imp hc
    · intro f hf
      simpa using List.all_eq_true.mp hspaced f hf
    · intro hbase
      simpa [hbase] using hcount
  · rintro ⟨n, hrow, hcount⟩
    have htake : t.takeWhile (fun c => c = '_' || (digit? base c).isSome) = t := by
      rw [List.takeWhile_eq_self_iff]
      intro c hc
      simpa using hrow.chars c hc
    have hspaced : (Text.fields '_' t).all (!·.isEmpty) = true := by
      rw [List.all_eq_true]
      intro f hf
      simpa using hrow.spaced f hf
    rw [htake, hspaced, List.drop_length, hrow.count, hrow.value]
    simpa using hcount

end

/-! ### Marks -/

theorem getLast?_tail {c : Char} {t : Text} {p : Char → Prop} (h : ∀ d ∈ (c :: t).getLast?, p d) :
    ∀ d ∈ t.getLast?, p d := by
  intro d hd
  apply h
  rw [List.getLast?_cons, hd]
  rfl

section

variable {base n v : Nat} {m : Char} {t : Text}

/-- A mark is no part of a decimal row, and announces another base than ten. -/
theorem base_of_mark (h : (m, base) ∈ allMarks) :
    base ≠ 10 ∧ m ≠ '_' ∧ digit? 10 m = none := by
  have hall : (allMarks.all fun k => k.2 ≠ 10 ∧ k.1 ≠ '_' ∧ digit? 10 k.1 = none) = true := by
    decide
  exact of_decide_eq_true (List.all_eq_true.mp hall _ h)

theorem mark_unique {other : Nat} (h : (m, base) ∈ allMarks) (hother : (m, other) ∈ allMarks) :
    other = base := by
  have hall : (allMarks.all fun k => allMarks.all fun l => k.1 = l.1 → l.2 = k.2) = true := by
    decide
  exact of_decide_eq_true (List.all_eq_true.mp (List.all_eq_true.mp hall _ h) _ hother) rfl

theorem zero_of_digit? {z : Char} (h : digit? 10 z = some 0) : z = '0' := by
  simp only [digit?, Option.filter_eq_some_iff] at h
  obtain ⟨h, -⟩ := h
  split at h
  · next hz =>
    obtain ⟨hlow, -⟩ := Char.isDigit_iff_toNat.mp hz
    change 48 ≤ z.toNat at hlow
    have hvalue : z.toNat - 48 = 0 := Option.some.inj h
    apply Char.toNat_inj.mp
    change z.toNat = 48
    omega
  · split at h
    · simp at h
    · split at h
      · simp at h
      · cases h

theorem readMarked_marked (h : (m, base) ∈ allMarks) (t : Text) :
    readMarked ('0' :: m :: t) = readDigits base (afterMark t) := by
  simp only [allMarks, List.mem_cons, Prod.mk.injEq, List.not_mem_nil, or_false] at h
  obtain ⟨rfl, rfl⟩ | ⟨rfl, rfl⟩ | ⟨rfl, rfl⟩ | ⟨rfl, rfl⟩ | ⟨rfl, rfl⟩ | ⟨rfl, rfl⟩ := h <;> rfl

/-- Without a mark the second reading takes what the first one takes, and leading zeros. -/
theorem readMarked_unmarked (h : ∀ m r base, t = '0' :: m :: r → (m, base) ∉ allMarks) :
    (readMarked t).or (readDigits 10 t) = readDigits 10 t := by
  have hsame : ∀ o : Option Nat, (o.filter (· == 0)).or o = o := by
    intro o
    rcases o with - | n
    · rfl
    · cases h : n == 0 <;> simp [Option.filter, h]
  unfold readMarked
  split
  · next m r =>
    have hm : ∀ base, (m, base) ∉ allMarks := fun base => h m r base rfl
    have hsixteen := hm 16
    have height := hm 8
    have htwo := hm 2
    simp [allMarks] at hsixteen height htwo
    simp only [hsixteen, height, htwo, decide_false, Bool.or_self, Bool.false_eq_true, if_false]
    exact hsame _
  · exact Option.or_self

/-- Behind a mark one underscore may stand. -/
theorem readDigits_afterMark (hbase : base ≠ 10)
    (hend : ∀ c ∈ t.getLast?, isPadding c = false) :
    readDigits base (afterMark t) = some v ↔
      ∃ n, folded.Row base t n v ∨ ∃ r, t = '_' :: r ∧ folded.Row base r n v := by
  unfold afterMark
  split
  · next r =>
    rw [readDigits_eq_some_iff (getLast?_tail hend)]
    constructor
    · rintro ⟨n, hrow, -⟩
      exact ⟨n, .inr ⟨r, rfl, hrow⟩⟩
    · rintro ⟨n, hrow | ⟨r', heq, hrow⟩⟩
      · exact absurd (isRow_of_row hrow).spaced (not_isSpaced_underscore r)
      · obtain ⟨-, rfl⟩ := List.cons.inj heq
        exact ⟨n, hrow, fun h => absurd h hbase⟩
  · next hplain =>
    rw [readDigits_eq_some_iff hend]
    constructor
    · rintro ⟨n, hrow, -⟩
      exact ⟨n, .inl hrow⟩
    · rintro ⟨n, hrow | ⟨r, rfl, -⟩⟩
      · exact ⟨n, hrow, fun h => absurd h hbase⟩
      · exact absurd rfl (hplain r)

/-- The two readings of a text without a sign are the literals without one. -/
theorem readUnsigned_iff (hend : ∀ c ∈ t.getLast?, isPadding c = false) :
    (readMarked t).or (readDigits 10 t) = some v ↔ folded.Unsigned t v := by
  by_cases hmark : ∃ m r base, t = '0' :: m :: r ∧ (m, base) ∈ allMarks
  · obtain ⟨m, r, base, rfl, hm⟩ := hmark
    obtain ⟨hten, hplain, hdigit⟩ := base_of_mark hm
    have hrest : ∀ c ∈ r.getLast?, isPadding c = false := getLast?_tail (getLast?_tail hend)
    have hrow : ∀ n w, ¬ folded.Row 10 ('0' :: m :: r) n w := by
      intro n w hrow
      have hchars := (isRow_of_row hrow).chars m (by simp)
      simp [hdigit, hplain] at hchars
    have hdecimal : readDigits 10 ('0' :: m :: r) = none := by
      rw [Option.eq_none_iff_forall_ne_some]
      intro w hw
      obtain ⟨n, hdigits, -⟩ := (readDigits_eq_some_iff hend).mp hw
      exact hrow n w hdigits
    rw [readMarked_marked hm, hdecimal, Option.or_none, readDigits_afterMark hten hrest]
    constructor
    · rintro ⟨n, hdigits | ⟨r', rfl, hdigits⟩⟩
      · exact .marked rfl hm hdigits
      · exact .spaced rfl rfl hm hdigits
    · intro h
      cases h with
      | decimal hdigits _ => exact absurd hdigits (hrow _ _)
      | marked _ hother hdigits =>
        obtain rfl := mark_unique hm hother
        exact ⟨_, .inl hdigits⟩
      | spaced _ _ hother hdigits =>
        obtain rfl := mark_unique hm hother
        exact ⟨_, .inr ⟨_, rfl, hdigits⟩⟩
  · have hunmarked : ∀ m r base, t = '0' :: m :: r → (m, base) ∉ allMarks :=
      fun m r base heq hm => hmark ⟨m, r, base, heq, hm⟩
    rw [readMarked_unmarked hunmarked, readDigits_eq_some_iff hend]
    constructor
    · rintro ⟨n, hdigits, hcount⟩
      exact .decimal hdigits (hcount rfl)
    · intro h
      cases h with
      | decimal hdigits hcount => exact ⟨_, hdigits, fun _ => hcount⟩
      | marked hz hm _ =>
        obtain rfl := zero_of_digit? hz
        exact absurd hm (hunmarked _ _ _ rfl)
      | spaced _ hz hm _ =>
        obtain rfl := zero_of_digit? hz
        exact absurd hm (hunmarked _ _ _ rfl)

end

/-! ### Digits of all scripts -/

section

variable {base n v : Nat} {t : Text}

theorem accepted_row_iff : accepted.Row base t n v ↔ folded.Row base (t.map plainChar) n v := by
  constructor
  · intro h
    induction h with
    | last hd => exact .last hd
    | cons hd _ ih => exact .cons hd ih
    | spaced _ hd _ ih => exact .spaced rfl hd ih
  · intro h
    generalize hu : t.map plainChar = u at h
    induction h generalizing t with
    | last hd =>
      obtain ⟨c, r, rfl, rfl, hr⟩ := List.map_eq_cons_iff.mp hu
      obtain rfl := List.map_eq_nil_iff.mp hr
      exact .last hd
    | cons hd _ ih =>
      obtain ⟨c, r, rfl, rfl, hr⟩ := List.map_eq_cons_iff.mp hu
      exact .cons hd (ih hr)
    | spaced _ hd _ ih =>
      obtain ⟨c, r, rfl, rfl, hr⟩ := List.map_eq_cons_iff.mp hu
      obtain ⟨gap, r, rfl, hgap, rfl⟩ := List.map_eq_cons_iff.mp hr
      obtain rfl := (plainChar_eq_iff (by decide)).mp hgap
      exact .spaced rfl hd (ih rfl)

theorem accepted_unsigned_iff : accepted.Unsigned t v ↔ folded.Unsigned (t.map plainChar) v := by
  have hsame : ∀ {m base}, (m, base) ∈ allMarks → ∀ {c}, plainChar c = m ↔ c = m := by
    intro m base hm c
    apply plainChar_eq_iff
    have hall : (allMarks.all fun k => k.1 ∈ "_+-xXoObB".toList) = true := by decide
    exact of_decide_eq_true (List.all_eq_true.mp hall _ hm)
  constructor
  · intro h
    cases h with
    | decimal hrow hn => exact .decimal (accepted_row_iff.mp hrow) hn
    | marked hz hm hrow =>
      rw [List.map_cons, List.map_cons, (hsame hm).mpr rfl]
      exact .marked hz hm (accepted_row_iff.mp hrow)
    | spaced _ hz hm hrow =>
      rw [List.map_cons, List.map_cons, (hsame hm).mpr rfl]
      exact .spaced rfl hz hm (accepted_row_iff.mp hrow)
  · intro h
    generalize hu : t.map plainChar = u at h
    cases h with
    | decimal hrow hn =>
      subst hu
      exact .decimal (accepted_row_iff.mpr hrow) hn
    | marked hz hm hrow =>
      obtain ⟨z, r, rfl, rfl, hr⟩ := List.map_eq_cons_iff.mp hu
      obtain ⟨m, r, rfl, hmark, rfl⟩ := List.map_eq_cons_iff.mp hr
      obtain rfl := (hsame hm).mp hmark
      exact .marked hz hm (accepted_row_iff.mpr hrow)
    | spaced _ hz hm hrow =>
      obtain ⟨z, r, rfl, rfl, hr⟩ := List.map_eq_cons_iff.mp hu
      obtain ⟨m, r, rfl, hmark, hr⟩ := List.map_eq_cons_iff.mp hr
      obtain ⟨gap, r, rfl, hgap, rfl⟩ := List.map_eq_cons_iff.mp hr
      obtain rfl := (hsame hm).mp hmark
      obtain rfl := (plainChar_eq_iff (by decide)).mp hgap
      exact .spaced rfl hz hm (accepted_row_iff.mpr hrow)

end

/-! ### Signs -/

section

variable {read : Text → Option Nat} {t : Text} {n : Nat} {v : Int}

/-- A literal without a sign starts with a digit. -/
theorem ne_sign_of_unsigned {c : Char} {r : Text} (h : accepted.Unsigned (c :: r) n) :
    c ≠ '-' ∧ c ≠ '+' := by
  have hdigit : ∃ d, digit? 10 (plainChar c) = some d := by
    cases h with
    | decimal hrow _ =>
      cases hrow with
      | last hd => exact ⟨_, hd⟩
      | cons hd _ => exact ⟨_, hd⟩
      | spaced _ hd _ => exact ⟨_, hd⟩
    | marked hz _ _ => exact ⟨_, hz⟩
    | spaced _ hz _ _ => exact ⟨_, hz⟩
  obtain ⟨d, hd⟩ := hdigit
  constructor
  · rintro rfl
    cases hd
  · rintro rfl
    cases hd

theorem readSigned_minus (read : Text → Option Nat) (r : Text) :
    readSigned read ('-' :: r) = (read (r.map plainChar)).map fun n : Nat => -(n : Int) := by
  change Option.map _ (do let n ← read (r.map plainChar); pure (n : Int)) = _
  cases read (r.map plainChar) <;> rfl

theorem readSigned_plus (read : Text → Option Nat) (r : Text) :
    readSigned read ('+' :: r) = (read (r.map plainChar)).map fun n : Nat => (n : Int) := by
  change Option.map _ (do let n ← read (r.map plainChar); pure (n : Int)) = _
  cases read (r.map plainChar) <;> rfl

theorem readSigned_bare (h : Text.IsTrimmed t) (hminus : t.head? ≠ some '-')
    (hplus : t.head? ≠ some '+') :
    readSigned read t = (read (t.map plainChar)).map fun n : Nat => (n : Int) := by
  have hstart : (t.map plainChar).dropWhile isPadding = t.map plainChar := by
    cases t with
    | nil => rfl
    | cons c r =>
      rw [List.map_cons, List.dropWhile_cons_of_neg]
      intro hpadding
      have hblank := h.front c rfl
      rw [isBlank_of_isPadding hpadding] at hblank
      cases hblank
  rw [readSigned, hstart]
  split
  · next r heq =>
    obtain ⟨c, r, rfl, hc, -⟩ := List.map_eq_cons_iff.mp heq
    obtain rfl := (plainChar_eq_iff (by decide)).mp hc
    exact absurd rfl hminus
  · next r heq =>
    obtain ⟨c, r, rfl, hc, -⟩ := List.map_eq_cons_iff.mp heq
    obtain rfl := (plainChar_eq_iff (by decide)).mp hc
    exact absurd rfl hplus
  · cases read (t.map plainChar) <;> rfl

/-- The reader with both readings in one. -/
def readUnsigned (t : Text) : Option Nat := (readMarked t).or (readDigits 10 t)

theorem readLiteral_eq_readSigned (t : Text) : readLiteral t = readSigned readUnsigned t := by
  rw [readLiteral, Option.orElse_eq_orElse, Option.orElse_eq_or, readInteger]
  unfold readSigned readUnsigned
  split
  · next r _ => cases readMarked r <;> rfl
  · next r _ => cases readMarked r <;> rfl
  · cases readMarked ((t.map plainChar).dropWhile isPadding) <;> rfl

theorem readUnsigned_map (h : ∀ c ∈ t.getLast?, isBlank c = false) :
    readUnsigned (t.map plainChar) = some n ↔ accepted.Unsigned t n := by
  have hend : ∀ c ∈ (t.map plainChar).getLast?, isPadding c = false := by
    intro c hc
    rw [List.getLast?_map, Option.mem_map] at hc
    obtain ⟨d, hd, rfl⟩ := hc
    rw [Bool.eq_false_iff]
    intro hpadding
    have hblank := h d hd
    rw [isBlank_of_isPadding hpadding] at hblank
    cases hblank
  rw [readUnsigned, readUnsigned_iff hend, accepted_unsigned_iff]

/-- **The grammar of the reader.**  A trimmed text is read as an integer exactly when it is a
    literal with this value. -/
theorem readLiteral_eq_some_iff (h : Text.IsTrimmed t) :
    readLiteral t = some v ↔ accepted.Signed t v := by
  rw [readLiteral_eq_readSigned]
  by_cases hminus : t.head? = some '-'
  · obtain ⟨r, rfl⟩ := List.head?_eq_some_iff.mp hminus
    have hr := getLast?_tail h.back
    rw [readSigned_minus, Option.map_eq_some_iff]
    constructor
    · rintro ⟨n, hn, rfl⟩
      exact .minus ((readUnsigned_map hr).mp hn)
    · intro hv
      cases hv with
      | bare hn => exact absurd rfl (ne_sign_of_unsigned hn).1
      | minus hn => exact ⟨_, (readUnsigned_map hr).mpr hn, rfl⟩
  by_cases hplus : t.head? = some '+'
  · obtain ⟨r, rfl⟩ := List.head?_eq_some_iff.mp hplus
    have hr := getLast?_tail h.back
    rw [readSigned_plus, Option.map_eq_some_iff]
    constructor
    · rintro ⟨n, hn, rfl⟩
      exact .plus ((readUnsigned_map hr).mp hn)
    · intro hv
      cases hv with
      | bare hn => exact absurd rfl (ne_sign_of_unsigned hn).2
      | plus hn => exact ⟨_, (readUnsigned_map hr).mpr hn, rfl⟩
  · rw [readSigned_bare h hminus hplus, Option.map_eq_some_iff]
    constructor
    · rintro ⟨n, hn, rfl⟩
      exact .bare ((readUnsigned_map h.back).mp hn)
    · intro hv
      cases hv with
      | bare hn => exact ⟨_, (readUnsigned_map h.back).mpr hn, rfl⟩
      | plus _ => exact absurd rfl hplus
      | minus _ => exact absurd rfl hminus

/-- A trimmed text has at most one value. -/
theorem signed_unique {w : Int} (h : Text.IsTrimmed t) (hv : accepted.Signed t v)
    (hw : accepted.Signed t w) : w = v := by
  have hread := (readLiteral_eq_some_iff h).mpr hv
  rw [(readLiteral_eq_some_iff h).mpr hw] at hread
  exact Option.some.inj hread

end

/-! ### The documented literals -/

/-- What stands behind the sign. -/
def afterSign : Text → Text
  | '-' :: r => r
  | '+' :: r => r
  | r => r

theorem afterSign_of_unsigned {t : Text} {n : Nat} (h : accepted.Unsigned t n) :
    afterSign t = t := by
  unfold afterSign
  split
  · exact absurd rfl (ne_sign_of_unsigned h).1
  · exact absurd rfl (ne_sign_of_unsigned h).2
  · rfl

/-- Common characters without an underscore, and without a mark of base eight or two behind
    the first. -/
structure IsPlain (t : Text) : Prop where
  common : ∀ c ∈ t, c.toNat < 128
  unspaced : '_' ∉ t
  unmarked : ∀ m ∈ t[1]?, m ∉ "oObB".toList

section

variable {base n v : Nat} {c : Char} {t : Text}

theorem digit_of_documented (h : documented.Row base t n v) : ∀ c ∈ t, (digit? base c).isSome := by
  induction h with
  | last hd => exact List.forall_mem_singleton.mpr (Option.isSome_of_mem hd)
  | cons hd _ ih => exact List.forall_mem_cons.mpr ⟨Option.isSome_of_mem hd, ih⟩
  | spaced hs _ _ _ => cases hs

theorem mark_of_documented {m : Char} (h : (m, base) ∈ documented.marks) :
    (m, base) ∈ allMarks ∧ m.toNat < 128 ∧ m ≠ '_' ∧ m ∉ "oObB".toList := by
  have hall : (documented.marks.all fun k => k ∈ allMarks ∧ k.1.toNat < 128 ∧ k.1 ≠ '_' ∧
      k.1 ∉ "oObB".toList) = true := by decide
  exact of_decide_eq_true (List.all_eq_true.mp hall _ h)

theorem plain_of_digit? (h : (digit? base c).isSome) : c.toNat < 128 ∧ c ≠ '_' := by
  obtain ⟨d, hd⟩ := Option.isSome_iff_exists.mp h
  exact ⟨Nat.lt_succ_of_lt (toNat_lt_of_digit? hd), ne_underscore_of_digit? hd⟩

theorem unmarked_of_digit? (h : (digit? 10 c).isSome) : c ∉ "oObB".toList := by
  intro hc
  have hall : ("oObB".toList.all fun c => (digit? 10 c).isNone) = true := by decide
  rw [Option.isNone_iff_eq_none.mp (List.all_eq_true.mp hall c hc)] at h
  cases h

theorem accepted_of_documented (h : documented.Unsigned t n) : accepted.Unsigned t n := by
  apply h.carry
  constructor
  · intro c _ base d hd
    change digit? base (plainChar c) = some d
    rwa [plainChar_of_lt (toNat_lt_of_digit? hd)]
  · intro _ _
    rfl
  · intro m _ base hm
    exact (mark_of_documented hm).1

theorem isPlain_of_documented (h : documented.Unsigned t n) : IsPlain t := by
  cases h with
  | decimal hrow _ =>
    have hdigits := digit_of_documented hrow
    constructor
    · intro c hc
      exact (plain_of_digit? (hdigits c hc)).1
    · intro hc
      exact (plain_of_digit? (hdigits _ hc)).2 rfl
    · intro m hm
      exact unmarked_of_digit? (hdigits m (List.mem_of_getElem? hm))
  | @marked z m base _ _ r hz hm hrow =>
    have hdigits := digit_of_documented hrow
    obtain ⟨-, hcommon, hunspaced, hunmarked⟩ := mark_of_documented hm
    obtain rfl := zero_of_digit? hz
    constructor
    · rw [List.forall_mem_cons, List.forall_mem_cons]
      refine ⟨by decide, hcommon, ?_⟩
      intro c hc
      exact (plain_of_digit? (hdigits c hc)).1
    · rw [List.mem_cons, List.mem_cons, not_or, not_or]
      refine ⟨by decide, Ne.symm hunspaced, ?_⟩
      intro hc
      exact (plain_of_digit? (hdigits _ hc)).2 rfl
    · intro c hc
      obtain rfl := Option.some.inj hc
      exact hunmarked
  | spaced hs _ _ _ => cases hs

theorem documented_of_isPlain (h : accepted.Unsigned t n) (hplain : IsPlain t) :
    documented.Unsigned t n := by
  apply h.carry
  constructor
  · intro c hc base d hd
    change digit? base (plainChar c) = some d at hd
    rwa [digit?_plainChar (hplain.common c hc)] at hd
  · intro hc
    exact absurd hc hplain.unspaced
  · intro m hm base hmark
    have hall : (allMarks.all fun k => k.1 ∉ "oObB".toList → k ∈ documented.marks) = true := by
      decide
    exact of_decide_eq_true (List.all_eq_true.mp hall _ hmark) (hplain.unmarked m hm)

end

/-- The documented literals are those that are read and plain behind the sign. -/
theorem documented_signed_iff {t : Text} {v : Int} :
    documented.Signed t v ↔ accepted.Signed t v ∧ IsPlain (afterSign t) := by
  constructor
  · intro h
    cases h with
    | bare hn =>
      have haccepted := accepted_of_documented hn
      rw [afterSign_of_unsigned haccepted]
      exact ⟨.bare haccepted, isPlain_of_documented hn⟩
    | plus hn => exact ⟨.plus (accepted_of_documented hn), isPlain_of_documented hn⟩
    | minus hn => exact ⟨.minus (accepted_of_documented hn), isPlain_of_documented hn⟩
  · rintro ⟨h, hplain⟩
    cases h with
    | bare hn =>
      rw [afterSign_of_unsigned hn] at hplain
      exact .bare (documented_of_isPlain hn hplain)
    | plus hn => exact .plus (documented_of_isPlain hn hplain)
    | minus hn => exact .minus (documented_of_isPlain hn hplain)

end ScriptModule.Numeral
