/-
  ScriptModule/Proofs/SingleSpacing.lean
  ======================================
  **Excerpts are single-spaced.**  An excerpt is the text with one space for every run of white
  space and none at its ends, if that is within the limit, and else the front of it with three
  dots behind.  A cut may leave a space in front of the dots, where it stands between other
  characters all the same.  So an excerpt is its own excerpt.
-/
import Mathlib.Data.List.Chain
import ScriptModule.Proofs.TextLaws
import ScriptModule.Text.Excerpt

namespace ScriptModule.Text

open Unicode

/-! ### Runs of white space -/

/-- Whether a text starts with white space. -/
def startsBlank (t : Text) : Bool := t.head?.any isBlank

/-- The text with one space for every run of white space. -/
def squeeze : Text → Text
  | [] => []
  | c :: t =>
    if isBlank c then
      -- the last character of a run leaves the space
      if startsBlank t then squeeze t else ' ' :: squeeze t
    else c :: squeeze t

/-- No white space but spaces, and no two of them side by side. -/
structure IsSqueezed (t : Text) : Prop where
  spaces : ∀ c ∈ t, isBlank c = true → c = ' '
  single : t.IsChain fun c d => isBlank c = false ∨ isBlank d = false

/-- No white space but single spaces between other characters. -/
structure IsSingleSpaced (t : Text) : Prop extends IsTrimmed t, IsSqueezed t

theorem startsBlank_squeeze (t : Text) : startsBlank (squeeze t) = startsBlank t := by
  induction t with
  | nil => rfl
  | cons c t ih =>
    rw [squeeze]
    split
    · next hc =>
      have hblank : startsBlank (c :: t) = true := hc
      split
      · next ht => rw [ih, ht, hblank]
      · rw [hblank]
        rfl
    · rfl

theorem isSqueezed_nil : IsSqueezed [] := ⟨by simp, .nil⟩

/-- A character may stand in front of a squeezed text, a space only if none comes next. -/
theorem IsSqueezed.cons {c : Char} {t : Text} (h : IsSqueezed t)
    (hc : isBlank c = true → c = ' ' ∧ startsBlank t = false) : IsSqueezed (c :: t) where
  spaces := List.forall_mem_cons.mpr ⟨fun hblank => (hc hblank).1, h.spaces⟩
  single := by
    refine List.isChain_cons.mpr ⟨?_, h.single⟩
    intro d hd
    rcases Bool.eq_false_or_eq_true (isBlank c) with hblank | hplain
    · have hnext := (hc hblank).2
      rw [startsBlank, hd] at hnext
      exact .inr hnext
    · exact .inl hplain

theorem isSqueezed_squeeze (t : Text) : IsSqueezed (squeeze t) := by
  induction t with
  | nil => exact isSqueezed_nil
  | cons c t ih =>
    rw [squeeze]
    split
    · split
      · exact ih
      · next ht =>
        rw [← startsBlank_squeeze] at ht
        exact ih.cons fun _ => ⟨rfl, Bool.eq_false_iff.mpr ht⟩
    · next hc => exact ih.cons fun hblank => absurd hblank hc

/-- A squeezed text is left as it is. -/
theorem IsSqueezed.squeeze_eq {t : Text} (h : IsSqueezed t) : squeeze t = t := by
  induction t with
  | nil => rfl
  | cons c t ih =>
    obtain ⟨hspace, hspaces⟩ := List.forall_mem_cons.mp h.spaces
    obtain ⟨hnext, hsingle⟩ := List.isChain_cons.mp h.single
    rw [squeeze, ih ⟨hspaces, hsingle⟩]
    split
    · next hc =>
      have hstart : ¬ startsBlank t = true := by
        rcases t with _ | ⟨d, t⟩
        · nofun
        · intro hd
          rcases hnext d rfl with hplain | hplain
          · cases hc.symm.trans hplain
          · cases hplain.symm.trans hd
      rw [if_neg hstart, hspace hc]
    · rfl

theorem isSingleSpaced_trim_squeeze (t : Text) : IsSingleSpaced (trim (squeeze t)) where
  toIsTrimmed := isTrimmed_trim _
  spaces c hc := (isSqueezed_squeeze t).spaces c (mem_of_mem_trim hc)
  single := by
    have hinfix : trim (squeeze t) <:+: squeeze t :=
      (prefix_dropEndWhile _ _).isInfix.trans (List.dropWhile_suffix _).isInfix
    exact List.IsChain.infix (isSqueezed_squeeze t).single hinfix

/-! ### Words with a space between them -/

theorem words_cons_of_blank {c : Char} (hc : isBlank c = true) (t : Text) :
    words (c :: t) = words t := by
  rw [words, fieldsBy, if_pos hc]
  rfl

/-- A character in front of white space is a word by itself. -/
theorem words_cons_of_startsBlank {c : Char} (hc : isBlank c = false) {t : Text}
    (ht : startsBlank t = true) : words (c :: t) = [c] :: words t := by
  cases t with
  | nil => cases ht
  | cons d t =>
    have hd : isBlank d = true := ht
    rw [words, fieldsBy, if_neg (by simp [hc]), words_cons_of_blank hd, fieldsBy, if_pos hd]
    rfl

/-- A character in front of a word belongs to it. -/
theorem words_cons_cons {c d : Char} (hc : isBlank c = false) (hd : isBlank d = false) (t : Text) :
    ∃ w ws, words (d :: t) = w :: ws ∧ words (c :: d :: t) = (c :: w) :: ws := by
  obtain ⟨f, fs, hfields⟩ := List.exists_cons_of_ne_nil (fieldsBy_ne_nil isBlank t)
  have hword : fieldsBy isBlank (d :: t) = (d :: f) :: fs := by
    rw [fieldsBy, if_neg (by simp [hd]), hfields]
  refine ⟨d :: f, fs.filter (!·.isEmpty), by rw [words, hword]; rfl, ?_⟩
  rw [words, fieldsBy, if_neg (by simp [hc]), hword]
  rfl

theorem trimEnd_cons_cons {d : Char} (hd : isBlank d = false) (c : Char) (t : Text) :
    trimEnd (c :: d :: t) = c :: trimEnd (d :: t) :=
  (dropEndWhile_append_cons hd [c] t).trans
    (congrArg (c :: ·) (dropEndWhile_append_cons hd [] t).symm)

theorem trimEnd_cons_of_not_blank {c : Char} (hc : isBlank c = false) (t : Text) :
    trimEnd (c :: t) = c :: trimEnd t :=
  dropEndWhile_append_cons hc [] t

/-- Trimmed at its end, a text without runs of white space is its words with a space in front of
    each, the first one aside if nothing stands in front of it. -/
theorem trimEnd_squeeze (t : Text) :
    trimEnd (squeeze t) =
      if startsBlank t then (words t).flatMap (" ".toList ++ ·) else join " ".toList (words t) := by
  induction t with
  | nil => rfl
  | cons c t ih =>
    rw [squeeze]
    by_cases hc : isBlank c = true
    · have hstart : startsBlank (c :: t) = true := hc
      rw [if_pos hc, if_pos hstart, words_cons_of_blank hc]
      by_cases ht : startsBlank t = true
      · rw [if_pos ht] at ih ⊢
        exact ih
      · rw [if_neg ht] at ih ⊢
        cases t with
        | nil => rfl
        | cons d t =>
          have hd : isBlank d = false := Bool.eq_false_iff.mpr ht
          obtain ⟨w, ws, hwords, -⟩ := words_cons_cons hd hd t
          have hsqueeze : squeeze (d :: t) = d :: squeeze t := if_neg ht
          rw [hsqueeze] at ih ⊢
          rw [trimEnd_cons_cons hd, ih, hwords, join_cons]
          rfl
    · have hplain := Bool.eq_false_iff.mpr hc
      have hstart : ¬ startsBlank (c :: t) = true := hc
      rw [if_neg hc, if_neg hstart, trimEnd_cons_of_not_blank hplain, ih]
      cases t with
      | nil =>
        have hword : words [c] = [[c]] := by simp [words, fieldsBy, hplain]
        rw [hword]
        rfl
      | cons d t =>
        by_cases hd : isBlank d = true
        · have hnext : startsBlank (d :: t) = true := hd
          rw [if_pos hnext, words_cons_of_startsBlank hplain hnext, join_cons]
          rfl
        · have hnext : ¬ startsBlank (d :: t) = true := hd
          obtain ⟨w, ws, hwords, hmore⟩ := words_cons_cons hplain (Bool.eq_false_iff.mpr hd) t
          rw [if_neg hnext, hwords, hmore, join_cons, join_cons]
          rfl

/-- The words of a text in a row are the text with one space for every run of white space and
    none at its ends. -/
theorem collapse_eq (t : Text) : collapse t = trim (squeeze t) := by
  induction t with
  | nil => rfl
  | cons c t ih =>
    by_cases hc : isBlank c = true
    · have hskip : trim (squeeze (c :: t)) = trim (squeeze t) := by
        rw [squeeze, if_pos hc]
        split
        · rfl
        · exact trim_cons_of_blank (by decide) _
      rw [collapse, words_cons_of_blank hc, hskip]
      exact ih
    · have hstart : ¬ startsBlank (c :: t) = true := hc
      have hfront : (squeeze (c :: t)).dropWhile isBlank = squeeze (c :: t) := by
        rw [squeeze, if_neg hc, List.dropWhile_cons_of_neg hc]
      rw [trim, hfront, trimEnd_squeeze, if_neg hstart]
      rfl

theorem isSingleSpaced_collapse (t : Text) : IsSingleSpaced (collapse t) := by
  rw [collapse_eq]
  exact isSingleSpaced_trim_squeeze t

theorem IsSingleSpaced.collapse_eq {t : Text} (h : IsSingleSpaced t) : collapse t = t := by
  rw [Text.collapse_eq, h.toIsSqueezed.squeeze_eq, h.trim_eq]

/-! ### Cutting -/

/-- The front of a single-spaced text with dots behind is single-spaced. -/
theorem IsSingleSpaced.cut {t : Text} (h : IsSingleSpaced t) (n : Nat) :
    IsSingleSpaced (t.take n ++ "...".toList) where
  front := by
    intro c hc
    rw [Option.mem_def, List.head?_append, List.head?_take] at hc
    split at hc
    · cases hc
      decide
    · cases t with
      | nil =>
        cases hc
        decide
      | cons d t => exact h.front c hc
  back := by
    intro c hc
    rw [List.getLast?_append] at hc
    cases hc
    decide
  spaces := by
    refine List.forall_mem_append.mpr ⟨fun c hc => h.spaces c (List.mem_of_mem_take hc), ?_⟩
    intro c hc hblank
    obtain rfl : c = '.' := by simpa using hc
    exact absurd hblank (by decide)
  single := by
    refine List.isChain_append.mpr ⟨h.single.take n, by decide, ?_⟩
    intro c _ d hd
    cases hd
    exact .inr (by decide)

/-! ### Excerpts -/

section

variable {limit : Int} {t : Text}

theorem excerpt_of_le (h : (collapse t).length ≤ limit) : excerpt limit t = collapse t :=
  if_neg (Int.not_lt.mpr h)

theorem excerpt_of_lt (hlimit : 3 ≤ limit) (h : limit < (collapse t).length) :
    excerpt limit t = (collapse t).take (limit - 3).toNat ++ "...".toList := by
  obtain ⟨n, hn⟩ := Int.eq_ofNat_of_zero_le (Int.sub_nonneg_of_le hlimit)
  rw [excerpt, if_pos h, hn]
  rfl

theorem length_excerpt_le (hlimit : 3 ≤ limit) (t : Text) : (excerpt limit t).length ≤ limit := by
  by_cases h : limit < (collapse t).length
  · have hfront := List.length_take_le (limit - 3).toNat (collapse t)
    rw [excerpt_of_lt hlimit h, List.length_append]
    have hdots : "...".toList.length = 3 := by decide
    omega
  · rw [excerpt_of_le (Int.not_lt.mp h)]
    exact Int.not_lt.mp h

theorem isSingleSpaced_excerpt (hlimit : 3 ≤ limit) (t : Text) :
    IsSingleSpaced (excerpt limit t) := by
  by_cases h : limit < (collapse t).length
  · rw [excerpt_of_lt hlimit h]
    exact (isSingleSpaced_collapse t).cut _
  · rw [excerpt_of_le (Int.not_lt.mp h)]
    exact isSingleSpaced_collapse t

/-- A single-spaced text within the limit is its own excerpt. -/
theorem IsSingleSpaced.excerpt_eq (h : IsSingleSpaced t) (hlength : t.length ≤ limit) :
    excerpt limit t = t := by
  have hcollapse : collapse t = t := h.collapse_eq
  rw [excerpt_of_le (hcollapse.symm ▸ hlength), hcollapse]

end

/-- For a limit that leaves room for the dots, an excerpt is within it and single-spaced.  It is
    the squeezed and trimmed text if that is within the limit, and else the front of that text
    with dots behind; and it is its own excerpt. -/
theorem excerpt_normal_form {limit : Int} (hlimit : 3 ≤ limit) (t : Text) :
    (excerpt limit t).length ≤ limit ∧ IsSingleSpaced (excerpt limit t) ∧
      ((trim (squeeze t)).length ≤ limit → excerpt limit t = trim (squeeze t)) ∧
      (limit < (trim (squeeze t)).length →
        excerpt limit t = (trim (squeeze t)).take (limit - 3).toNat ++ "...".toList) ∧
      excerpt limit (excerpt limit t) = excerpt limit t := by
  have hlength := length_excerpt_le hlimit t
  have hspaced := isSingleSpaced_excerpt hlimit t
  rw [← collapse_eq]
  exact ⟨hlength, hspaced, excerpt_of_le, excerpt_of_lt hlimit, hspaced.excerpt_eq hlength⟩

/-- White space of two kinds, cut behind a space. -/
theorem excerpt_normal_form_cut :
    let t := " ab\t \u3000c\n def ".toList
    (3 : Int) ≤ 6 ∧ (6 : Int) < (trim (squeeze t)).length ∧ excerpt 6 t = "ab ...".toList ∧
      IsSingleSpaced (excerpt 6 t) ∧ excerpt 6 (excerpt 6 t) = excerpt 6 t := by
  intro t
  have hlong : (6 : Int) < (trim (squeeze t)).length := by decide
  obtain ⟨-, hspaced, -, hcut, hagain⟩ := @excerpt_normal_form 6 (by decide) t
  exact ⟨by decide, hlong, (hcut hlong).trans (by decide), hspaced, hagain⟩

end ScriptModule.Text
