/-
  ScriptModule/Proofs/TextLaws.lean
  =================================
  **Laws of texts.**  Trimming leaves a text without blanks at its ends, and such a text as
  it is; white space put around a text is trimmed away.  Splitting a text at a separator
  gives fields without it, and gives fields back that were put in a row with the separator
  between them; put in a row, the fields of a text are the text.  The order by code points
  is that of lists of characters.  A fold leaves no character out.
-/
import Mathlib.Data.Char
import Mathlib.Data.List.Lex
import Mathlib.Data.List.TakeWhile
import ScriptModule.Text.Casing

namespace ScriptModule.Text

open Unicode

/-! ### Folding -/

theorem mapChar_ne_nil {shifts : List Shift} {expansions : List (Nat × List Nat)}
    (h : (expansions.all fun r => !r.2.isEmpty) = true) (c : Char) :
    mapChar shifts expansions c ≠ [] := by
  unfold mapChar
  split
  · next ns hns =>
    obtain ⟨front, back, rfl, -⟩ := List.lookup_eq_some_iff.mp hns
    rw [List.all_append, List.all_cons, Bool.and_eq_true, Bool.and_eq_true] at h
    simpa using h.2.1
  · exact List.cons_ne_nil _ _

theorem foldExpansions_full :
    (foldExpansions.all fun r => !r.2.isEmpty) = true := by
  decide +kernel

theorem foldChar_ne_nil (c : Char) : foldChar c ≠ [] := by
  unfold foldChar
  split
  · exact List.cons_ne_nil _ _
  · exact mapChar_ne_nil foldExpansions_full c

/-- A name and a longer one that starts with it are no spellings of one name. -/
theorem eq_of_prefix_of_fold {a b : Text} (h : a <+: b) (hfold : fold a = fold b) :
    a = b := by
  obtain ⟨t, rfl⟩ := h
  have hnil : fold t = [] := by
    rw [fold, fold, List.flatMap_append] at hfold
    exact List.self_eq_append_right.mp hfold
  cases t with
  | nil => exact (List.append_nil a).symm
  | cons c t => exact absurd (List.append_eq_nil_iff.mp hnil).1 (foldChar_ne_nil c)

/-! ### Trimming -/

theorem dropEndWhile_of_getLast? {p : Char → Bool} {t : Text}
    (h : ∀ c ∈ t.getLast?, p c = false) : dropEndWhile p t = t := by
  have hall : t.reverse.dropWhile p = t.reverse := by
    rcases hlast : t.reverse with _ | ⟨c, r⟩
    · rfl
    · have hc := h c (by rw [← List.head?_reverse, hlast]; rfl)
      rw [List.dropWhile_cons_of_neg (by simp [hc])]
  rw [dropEndWhile, hall, List.reverse_reverse]

theorem dropEndWhile_of_not_mem {p : Char → Bool} {t : Text} (h : ∀ c ∈ t, p c = false) :
    dropEndWhile p t = t :=
  dropEndWhile_of_getLast? fun c hc => h c (List.mem_of_getLast? hc)

theorem prefix_dropEndWhile (p : Char → Bool) (t : Text) : dropEndWhile p t <+: t := by
  have hsuffix := List.reverse_prefix.mpr (List.dropWhile_suffix (l := t.reverse) p)
  rwa [List.reverse_reverse] at hsuffix

theorem dropEndWhile_append_cons {p : Char → Bool} {c : Char} (hc : p c = false) (a b : Text) :
    dropEndWhile p (a ++ c :: b) = a ++ c :: dropEndWhile p b := by
  have hkeep : (c :: a.reverse).dropWhile p = c :: a.reverse :=
    List.dropWhile_cons_of_neg (by simp [hc])
  rw [dropEndWhile, dropEndWhile, List.reverse_append, List.reverse_cons, List.append_assoc,
    List.singleton_append, List.dropWhile_append, hkeep]
  split
  · next hnil => simp [List.isEmpty_iff.mp hnil]
  · simp

theorem isBlank_of_getLast?_trimEnd {t : Text} {c : Char}
    (h : (trimEnd t).getLast? = some c) : isBlank c = false := by
  rw [trimEnd, dropEndWhile, List.getLast?_reverse] at h
  have hhead := List.head?_dropWhile_not isBlank t.reverse
  rw [h] at hhead
  exact hhead

/-- Whether a text has no blank at either end. -/
structure IsTrimmed (t : Text) : Prop where
  front : ∀ c ∈ t.head?, isBlank c = false
  back : ∀ c ∈ t.getLast?, isBlank c = false

theorem isTrimmed_trim (t : Text) : IsTrimmed (trim t) := by
  constructor
  · intro c hc
    have hhead := List.head?_dropWhile_not isBlank t
    obtain ⟨behind, hbehind⟩ := prefix_dropEndWhile isBlank (t.dropWhile isBlank)
    have hfirst : (dropEndWhile isBlank (t.dropWhile isBlank)).head? = some c := hc
    have hsame : (t.dropWhile isBlank).head? = some c := by
      rw [← hbehind, List.head?_append, hfirst]
      rfl
    rw [hsame] at hhead
    exact hhead
  · intro c hc
    exact isBlank_of_getLast?_trimEnd hc

theorem IsTrimmed.trim_eq {t : Text} (h : IsTrimmed t) : trim t = t := by
  have hfront : t.dropWhile isBlank = t := by
    cases t with
    | nil => rfl
    | cons c t => rw [List.dropWhile_cons_of_neg (by simp [h.front c rfl])]
  rw [trim, hfront]
  exact dropEndWhile_of_getLast? h.back

theorem trim_of_not_blank {t : Text} (h : ∀ c ∈ t, isBlank c = false) : trim t = t := by
  apply IsTrimmed.trim_eq
  constructor
  · intro c hc
    exact h c (List.mem_of_head? hc)
  · intro c hc
    exact h c (List.mem_of_getLast? hc)

@[simp] theorem trim_trim (t : Text) : trim (trim t) = trim t := (isTrimmed_trim t).trim_eq

theorem trim_cons_of_blank {c : Char} (h : isBlank c = true) (t : Text) :
    trim (c :: t) = trim t := by
  rw [trim, trim, List.dropWhile_cons_of_pos h]

theorem mem_of_mem_trim {c : Char} {t : Text} (h : c ∈ trim t) : c ∈ t :=
  (List.dropWhile_suffix _).subset ((prefix_dropEndWhile _ _).subset h)

theorem mem_trim {c : Char} {t : Text} (h : c ∈ t) (hc : isBlank c = false) : c ∈ trim t := by
  have hdrop : ∀ {u : Text}, c ∈ u → c ∈ u.dropWhile isBlank := by
    intro u hu
    rw [← List.takeWhile_append_dropWhile (p := isBlank) (l := u), List.mem_append] at hu
    rcases hu with hu | hu
    · rw [List.mem_takeWhile_imp hu] at hc
      cases hc
    · exact hu
  exact List.mem_reverse.mpr (hdrop (List.mem_reverse.mpr (hdrop h)))

/-! ### White space put around a text -/

/-- A text, and the same text with white space put around it. -/
inductive Padded (t : Text) : Text → Prop where
  | intro {front back : Text} : (∀ c ∈ front, isBlank c = true) →
      (∀ c ∈ back, isBlank c = true) → Padded t (front ++ t ++ back)

theorem trim_append_of_blank {t back : Text} (h : ∀ c ∈ back, isBlank c = true) :
    trim (t ++ back) = trim t := by
  have hend : ∀ u : Text, trimEnd (u ++ back) = trimEnd u := by
    intro u
    have hreverse : ∀ c ∈ back.reverse, isBlank c = true := fun c hc => h c (List.mem_reverse.mp hc)
    rw [trimEnd, trimEnd, dropEndWhile, dropEndWhile, List.reverse_append,
      List.dropWhile_append_of_pos hreverse]
  rw [trim, trim, List.dropWhile_append]
  split
  · next hblank =>
    rw [List.isEmpty_iff.mp hblank, List.dropWhile_eq_nil_iff.mpr h]
  · exact hend _

theorem Padded.trim_eq {t u : Text} (h : Padded t u) : trim u = trim t := by
  obtain @⟨front, back, hfront, hback⟩ := h
  rw [trim_append_of_blank hback]
  induction front with
  | nil => rfl
  | cons c front ih =>
    rw [List.forall_mem_cons] at hfront
    exact (trim_cons_of_blank hfront.1 (front ++ t)).trans (ih hfront.2)

theorem Padded.not_mem {t u : Text} (h : Padded t u) {c : Char} (hc : isBlank c = false)
    (ht : c ∉ t) : c ∉ u := by
  obtain @⟨front, back, hfront, hback⟩ := h
  have hplain : ∀ {pad : Text}, (∀ d ∈ pad, isBlank d = true) → c ∉ pad := by
    intro pad hpad hmem
    rw [hpad c hmem] at hc
    cases hc
  simp only [List.mem_append, not_or]
  exact ⟨⟨hplain hfront, ht⟩, hplain hback⟩

theorem trim_dropWhile (t : Text) : trim (t.dropWhile isBlank) = trim t := by
  have hpadded : Padded (t.dropWhile isBlank) (t.takeWhile isBlank ++ t.dropWhile isBlank ++ []) :=
    .intro (fun _ => List.mem_takeWhile_imp) (List.forall_mem_nil _)
  rw [← hpadded.trim_eq, List.append_nil, List.takeWhile_append_dropWhile]

theorem trim_trimEnd (t : Text) : trim (trimEnd t) = trim t := by
  have hsplit : trimEnd t ++ (t.reverse.takeWhile isBlank).reverse = t := by
    rw [trimEnd, dropEndWhile, ← List.reverse_append, List.takeWhile_append_dropWhile,
      List.reverse_reverse]
  have hblank : ∀ c ∈ (t.reverse.takeWhile isBlank).reverse, isBlank c = true :=
    fun c hc => List.mem_takeWhile_imp (List.mem_reverse.mp hc)
  rw [← trim_append_of_blank hblank, hsplit]

/-- A character that is no blank has the trimmed texts in front of it and behind it, once
    these are trimmed again. -/
theorem trim_append_cons {c : Char} (hc : isBlank c = false) (a b : Text) :
    trim (a ++ c :: b) = a.dropWhile isBlank ++ c :: trimEnd b := by
  have hfront : (a ++ c :: b).dropWhile isBlank = a.dropWhile isBlank ++ c :: b := by
    rw [List.dropWhile_append, List.dropWhile_cons_of_neg (by simp [hc])]
    split
    · next hnil => rw [List.isEmpty_iff.mp hnil, List.nil_append]
    · rfl
  rw [trim, hfront]
  exact dropEndWhile_append_cons hc _ _

/-! ### Fields -/

theorem fieldsBy_of_not_mem {p : Char → Bool} {t : Text} (h : ∀ c ∈ t, p c = false) :
    fieldsBy p t = [t] := by
  induction t with
  | nil => rfl
  | cons c t ih =>
    rw [List.forall_mem_cons] at h
    rw [fieldsBy, h.1, ih h.2]
    rfl

theorem fieldsBy_append {p : Char → Bool} {a b : Text} {d : Char} (ha : ∀ c ∈ a, p c = false)
    (hd : p d = true) : fieldsBy p (a ++ d :: b) = a :: fieldsBy p b := by
  induction a with
  | nil => rw [List.nil_append, fieldsBy, if_pos hd]
  | cons c a ih =>
    rw [List.forall_mem_cons] at ha
    rw [List.cons_append, fieldsBy, ha.1, ih ha.2]
    rfl

theorem not_mem_fieldsBy {p : Char → Bool} {t f : Text} (h : f ∈ fieldsBy p t) :
    ∀ c ∈ f, p c = false := by
  induction t generalizing f with
  | nil =>
    obtain rfl := List.mem_singleton.mp h
    exact nofun
  | cons c t ih =>
    rw [fieldsBy] at h
    split at h
    · rcases List.mem_cons.mp h with rfl | h
      · exact nofun
      · exact ih h
    · next hc =>
      have hplain : p c = false := Bool.eq_false_iff.mpr hc
      split at h
      · next g gs hfields =>
        rw [hfields] at ih
        rcases List.mem_cons.mp h with rfl | h
        · rw [List.forall_mem_cons]
          exact ⟨hplain, ih List.mem_cons_self⟩
        · exact ih (List.mem_cons_of_mem g h)
      · obtain rfl := List.mem_singleton.mp h
        intro d hd
        obtain rfl := List.mem_singleton.mp hd
        exact hplain

theorem not_mem_fields {sep : Char} {t f : Text} (h : f ∈ fields sep t) : sep ∉ f := by
  intro hmem
  have hno := not_mem_fieldsBy h sep hmem
  rw [beq_self_eq_true] at hno
  cases hno

theorem exists_field {p : Char → Bool} {c : Char} {t : Text} (h : c ∈ t) (hc : p c = false) :
    ∃ f ∈ fieldsBy p t, c ∈ f := by
  induction t with
  | nil => cases h
  | cons d t ih =>
    rw [fieldsBy]
    rcases List.mem_cons.mp h with rfl | h
    · rw [hc]
      rcases fieldsBy p t with _ | ⟨f, fs⟩ <;> simp
    · obtain ⟨f, hf, hcf⟩ := ih h
      split
      · exact ⟨f, List.mem_cons_of_mem _ hf, hcf⟩
      · split
        · next g gs hfields =>
          rw [hfields] at hf
          rcases List.mem_cons.mp hf with rfl | hf
          · exact ⟨d :: f, List.mem_cons_self, List.mem_cons_of_mem d hcf⟩
          · exact ⟨f, List.mem_cons_of_mem _ hf, hcf⟩
        · next hfields =>
          rw [hfields] at hf
          cases hf

theorem fieldsBy_ne_nil (p : Char → Bool) (t : Text) : fieldsBy p t ≠ [] := by
  cases t with
  | nil => exact List.cons_ne_nil _ _
  | cons c t =>
    rw [fieldsBy]
    split
    · exact List.cons_ne_nil _ _
    · split <;> exact List.cons_ne_nil _ _

theorem exists_cons_fields (sep : Char) (t : Text) : ∃ f fs, fields sep t = f :: fs :=
  List.exists_cons_of_ne_nil (fieldsBy_ne_nil (· == sep) t)

theorem join_cons (sep t : Text) (ts : List Text) :
    join sep (t :: ts) = t ++ ts.flatMap (sep ++ ·) := by
  induction ts generalizing t with
  | nil => simp [join]
  | cons u ts ih =>
    have hmore := ih u
    rw [join] at hmore ⊢
    rw [List.intercalate_cons_cons, hmore]
    simp

/-- Fields with their separator between them are the text that they were cut from. -/
theorem join_fields (sep : Char) (t : Text) : join [sep] (fields sep t) = t := by
  unfold fields
  induction t with
  | nil => rfl
  | cons c t ih =>
    rw [fieldsBy]
    rcases hfields : fieldsBy (· == sep) t with _ | ⟨f, fs⟩
    · exact absurd hfields (fieldsBy_ne_nil _ t)
    · rw [hfields, join_cons] at ih
      split
      · next hc =>
        rw [beq_iff_eq.mp hc, join_cons, List.flatMap_cons, List.nil_append, List.append_assoc, ih]
        rfl
      · dsimp only
        rw [join_cons, List.cons_append, ih]

/-- Fields that were joined are found again, with what stands behind the separator. -/
theorem fields_join {sep : Char} {gap t : Text} {ts : List Text} (hgap : sep ∉ gap)
    (ht : sep ∉ t) (hts : ∀ u ∈ ts, sep ∉ u) :
    fields sep (join (sep :: gap) (t :: ts)) = t :: ts.map (gap ++ ·) := by
  have hplain : ∀ {u : Text}, sep ∉ u → ∀ c ∈ u, (c == sep) = false := by
    intro u hu c hc
    rw [beq_eq_false_iff_ne]
    rintro rfl
    exact hu hc
  rw [join_cons, fields]
  induction ts generalizing t with
  | nil =>
    rw [List.flatMap_nil, List.append_nil, fieldsBy_of_not_mem (hplain ht)]
    rfl
  | cons u ts ih =>
    rw [List.forall_mem_cons] at hts
    have hu : sep ∉ gap ++ u := by
      rw [List.mem_append]
      exact not_or.mpr ⟨hgap, hts.1⟩
    rw [List.flatMap_cons, List.cons_append, List.cons_append,
      fieldsBy_append (hplain ht) (beq_self_eq_true sep), ih hu hts.2]
    rfl

/-- Fields put in a row with nothing but the separator between them. -/
theorem fields_join_plain {sep : Char} {t : Text} {ts : List Text} (h : ∀ u ∈ t :: ts, sep ∉ u) :
    fields sep (join [sep] (t :: ts)) = t :: ts := by
  rw [List.forall_mem_cons] at h
  have hjoin := @fields_join sep [] t ts List.not_mem_nil h.1 h.2
  simp only [List.nil_append, List.map_id'] at hjoin
  exact hjoin

/-! ### Order -/

/-- The order of texts is that of lists of characters. -/
theorem le_iff (a b : Text) : le a b = true ↔ a ≤ b := by
  induction a generalizing b with
  | nil => simp [le, ← not_lt]
  | cons c a ih =>
    cases b with
    | nil => simp [le, ← not_lt]
    | cons d b =>
      have hstep : le (c :: a) (d :: b) = true ↔ c < d ∨ c = d ∧ le a b = true := by
        simp [le, Char.lt_def, UInt32.lt_iff_toNat_lt]
      rw [hstep, ih b, ← not_lt, ← not_lt, List.cons_lt_cons_iff]
      rcases lt_trichotomy c d with hlt | rfl | hlt
      · simp [hlt, hlt.asymm, hlt.ne']
      · simp
      · simp [hlt, hlt.asymm, hlt.ne']

end ScriptModule.Text
