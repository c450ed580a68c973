/-
  ScriptModule/Proofs/ImportNames.lean
  ====================================
  **Names of kept imports.**  The normal form of an assembly reference is its own normal
  form.  Each kept import stands under the fold of the name it is shown by, so a table of
  imports is what its names, taken in one after the other, are merged into.
-/
import Mathlib.Data.List.Basic
import Mathlib.Data.List.TakeWhile
import ScriptModule.Merge.Imports
import ScriptModule.Proofs.KeyedSort
import ScriptModule.Proofs.TableRows
import ScriptModule.Proofs.TextLaws

namespace ScriptModule

/-! ### Parts of a text without blanks at their ends -/

namespace Text

theorem IsTrimmed.append {a b : Text} (ha : IsTrimmed a) (hb : IsTrimmed b) :
    IsTrimmed (a ++ b) := by
  constructor
  · intro c hc
    rw [List.head?_append] at hc
    rcases hfirst : a.head? with _ | d
    · rw [hfirst] at hc
      exact hb.front c hc
    · rw [hfirst] at hc
      cases hc
      exact ha.front _ hfirst
  · intro c hc
    rw [List.getLast?_append] at hc
    rcases hlast : b.getLast? with _ | d
    · rw [hlast] at hc
      exact ha.back c hc
    · rw [hlast] at hc
      cases hc
      exact hb.back _ hlast

theorem cut?_eq_some {sep : Char} {t key value : Text} (h : cut? sep t = some (key, value)) :
    t = key ++ sep :: value ∧ sep ∉ key := by
  unfold cut? at h
  split at h
  · cases h
  · next d r hrest =>
    cases h
    have hsep : d = sep := by
      have hhead := List.head?_dropWhile_not (fun c => decide (c ≠ sep)) t
      rw [hrest] at hhead
      simpa using hhead
    constructor
    · rw [← hsep, ← hrest, hsep]
      exact (List.takeWhile_append_dropWhile (p := fun c => decide (c ≠ sep))).symm
    · intro hmem
      have hne := List.mem_takeWhile_imp hmem
      simp at hne

theorem not_mem_of_cut?_eq_none {sep : Char} {t : Text} (h : cut? sep t = none) : sep ∉ t := by
  unfold cut? at h
  split at h
  · next hnil =>
    intro hmem
    have hne := List.dropWhile_eq_nil_iff.mp hnil sep hmem
    simp at hne
  · cases h

theorem cut?_append {sep : Char} {key : Text} (h : sep ∉ key) (value : Text) :
    cut? sep (key ++ sep :: value) = some (key, value) := by
  have hkey : ∀ c ∈ key, decide (c ≠ sep) = true := by
    intro c hc
    rw [decide_eq_true_eq]
    rintro rfl
    exact h hc
  unfold cut?
  rw [List.dropWhile_append_of_pos hkey, List.takeWhile_append_of_pos hkey,
    List.dropWhile_cons_of_neg (by simp), List.takeWhile_cons_of_neg (by simp)]
  simp

end Text

/-! ### Assembly references -/

namespace Assembly

open Text

/-- A detail clause as it stands in a normal form. -/
structure IsClause (c : Text) : Prop where
  ne_nil : c ≠ []
  plain : ',' ∉ c
  trimmed : IsTrimmed c
  tidy : tidy c = c

theorem isClause_tidy {c : Text} (hne : c ≠ []) (hplain : ',' ∉ c) (htrimmed : IsTrimmed c) :
    IsClause (Assembly.tidy c) := by
  unfold Assembly.tidy
  split
  · next key value hcut =>
    obtain ⟨rfl, hkey⟩ := cut?_eq_some hcut
    have hequals : IsTrimmed "=".toList := by
      constructor
      · rintro c ⟨⟩
        decide
      · rintro c ⟨⟩
        decide
    have hkey' : '=' ∉ trim key := fun hmem => hkey (mem_of_mem_trim hmem)
    have htext : trim key ++ "=".toList ++ trim value = trim key ++ '=' :: trim value := by simp
    constructor
    · simp
    · simp only [htext, List.mem_append, List.mem_cons, not_or] at hplain ⊢
      exact ⟨fun hmem => hplain.1 (mem_of_mem_trim hmem), by decide,
        fun hmem => hplain.2.2 (mem_of_mem_trim hmem)⟩
    · exact ((isTrimmed_trim key).append hequals).append (isTrimmed_trim value)
    · rw [htext, Assembly.tidy, cut?_append hkey']
      simp
  · next hcut =>
    refine ⟨hne, hplain, htrimmed, ?_⟩
    rw [Assembly.tidy, hcut]

/-- A reference in normal form: a name, and clauses in the order of their keys. -/
inductive IsNormal : Text → Prop
  | intro {head : Text} {clauses : List Text} : ',' ∉ head → IsTrimmed head →
      (∀ c ∈ clauses, IsClause c) → sorted clauses = clauses →
      IsNormal (join ", ".toList (head :: clauses))

theorem isNormal_normalize (n : Text) : IsNormal (normalize n) := by
  unfold normalize
  split
  · next hnone =>
    exact @IsNormal.intro [] [] List.not_mem_nil ⟨nofun, nofun⟩ (List.forall_mem_nil _)
      List.mergeSort_nil
  · next head rest hparts =>
    have hpart : ∀ p ∈ head :: rest, ',' ∉ p ∧ IsTrimmed p := by
      intro p hp
      rw [← hparts] at hp
      obtain ⟨f, hf, rfl⟩ := List.mem_map.mp hp
      refine ⟨?_, isTrimmed_trim f⟩
      intro hcomma
      have hno := not_mem_fieldsBy hf _ (mem_of_mem_trim hcomma)
      cases hno
    obtain ⟨hhead, hrest⟩ := List.forall_mem_cons.mp hpart
    apply IsNormal.intro hhead.1 hhead.2
    · intro c hc
      rw [sorted, List.mem_mergeSort] at hc
      obtain ⟨p, hp, rfl⟩ := List.mem_map.mp hc
      obtain ⟨hp, hne⟩ := List.mem_filter.mp hp
      apply isClause_tidy
      · simpa using hne
      · exact (hrest p hp).1
      · exact (hrest p hp).2
    · exact mergeSort_mergeSort_key sortKey (fun _ _ => le_iff _ _) _

theorem IsNormal.isTrimmed {n : Text} (h : IsNormal n) : IsTrimmed n := by
  obtain @⟨head, clauses, -, hhead, hclauses, -⟩ := h
  rw [join_cons]
  apply hhead.append
  induction clauses with
  | nil => exact ⟨nofun, nofun⟩
  | cons c clauses ih =>
    rw [List.forall_mem_cons] at hclauses
    have hclause : IsTrimmed (", ".toList ++ c) := by
      constructor
      · intro d hd
        cases hd
        decide
      · intro d hd
        rw [List.getLast?_append_of_ne_nil _ hclauses.1.ne_nil] at hd
        exact hclauses.1.trimmed.back d hd
    exact hclause.append (ih hclauses.2)

/-- A normal form is its own normal form. -/
theorem IsNormal.normalize_eq {n : Text} (h : IsNormal n) : normalize n = n := by
  obtain @⟨head, clauses, hplain, hhead, hclauses, hsorted⟩ := h
  have hfields : fields ',' (join ", ".toList (head :: clauses)) =
      head :: clauses.map (" ".toList ++ ·) := by
    apply fields_join
    · decide
    · exact hplain
    · intro c hc
      exact (hclauses c hc).plain
  have htrim : (clauses.map (" ".toList ++ ·)).map trim = clauses := by
    rw [List.map_map]
    refine (List.map_congr_left ?_).trans (List.map_id clauses)
    intro c hc
    exact (trim_cons_of_blank (by decide) c).trans (hclauses c hc).trimmed.trim_eq
  have hkept : clauses.filter (!·.isEmpty) = clauses := by
    rw [List.filter_eq_self]
    intro c hc
    simpa using (hclauses c hc).ne_nil
  have htidy : clauses.map Assembly.tidy = clauses := by
    refine (List.map_congr_left ?_).trans (List.map_id clauses)
    intro c hc
    exact (hclauses c hc).tidy
  rw [normalize, hfields, List.map_cons, htrim, hhead.trim_eq]
  simp only [hkept, htidy, hsorted]

end Assembly

theorem Namespace.canonical_trim (n : Text) : canonical (Text.trim n) = canonical n := by
  rw [canonical, canonical, Text.trim_trim]

/-! ### Merged statements -/

namespace Imports

/-- Takes in a statement if it is an import. -/
def take (i : Imports) (st : Statement) : Imports :=
  match st.content with
  | .importing m => (i.add m st.text).1
  | _ => i

/-- What a row of statements is merged into. -/
def ofStatements (sts : List Statement) : Imports := sts.foldl take {}

theorem take_names {st : Statement} {n : Text} (h : st.content = .importing ⟨.names, n⟩)
    (i : Imports) :
    i.take st = ⟨i.namespaces.insertNew (Text.fold (Namespace.canonical n))
      (Namespace.canonical n), i.assemblies⟩ := by
  rw [take, h]
  rfl

theorem take_assembly {st : Statement} {n : Text} (h : st.content = .importing ⟨.assembly, n⟩)
    (i : Imports) :
    i.take st = ⟨i.namespaces, i.assemblies.insertNew (Text.fold (Assembly.normalize n))
      (Assembly.normalize n)⟩ := by
  rw [take, h]
  rfl

/-- Only what statements say has a part in what they are merged into. -/
theorem ofStatements_congr {sts rs : List Statement}
    (h : sts.map Statement.content = rs.map Statement.content) :
    ofStatements sts = ofStatements rs := by
  have htake : ∀ (i : Imports) {st r : Statement}, st.content = r.content →
      i.take st = i.take r := by
    intro i st r hsame
    unfold take
    rw [hsame]
    rcases r.content with _ | ⟨kind, name⟩ | _ | _ | _ | _ | _ <;> try rfl
    cases kind <;> rfl
  have hfold : ∀ i : Imports, sts.foldl take i = rs.foldl take i := by
    induction sts generalizing rs with
    | nil =>
      obtain rfl := List.map_eq_nil_iff.mp h.symm
      intro i
      rfl
    | cons st sts ih =>
      obtain ⟨r, rs, rfl, hr, hrs⟩ := List.map_eq_cons_iff.mp h.symm
      intro i
      rw [List.foldl_cons, List.foldl_cons, htake i hr.symm]
      exact ih hrs.symm _
  exact hfold {}

/-- Whether each name stands under its fold, and assemblies are in normal form. -/
structure IsKept (i : Imports) : Prop where
  namespaces : ∀ r ∈ i.namespaces.rows, r.1 = Text.fold r.2
  assemblies : ∀ r ∈ i.assemblies.rows, r.1 = Text.fold r.2 ∧ Assembly.IsNormal r.2

theorem isKept_empty : ({} : Imports).IsKept := ⟨List.forall_mem_nil _, List.forall_mem_nil _⟩

/-- What is taken in stands under its fold. -/
theorem IsKept.take {i : Imports} (h : i.IsKept) (st : Statement) : (i.take st).IsKept := by
  unfold Imports.take
  split
  · next m _ =>
    unfold add
    split
    · constructor
      · intro r hr
        rcases Table.mem_rows_insertNew hr with hr | rfl
        · exact h.namespaces r hr
        · rfl
      · exact h.assemblies
    · constructor
      · exact h.namespaces
      · intro r hr
        rcases Table.mem_rows_insertNew hr with hr | rfl
        · exact h.assemblies r hr
        · exact ⟨rfl, Assembly.isNormal_normalize m.name⟩
    · exact h
    · exact h
  · exact h

theorem IsKept.foldl {i : Imports} (h : i.IsKept) (sts : List Statement) :
    (sts.foldl Imports.take i).IsKept := by
  induction sts generalizing i with
  | nil => exact h
  | cons st sts ih => exact ih (h.take st)

theorem isKept_ofStatements (sts : List Statement) : (ofStatements sts).IsKept :=
  isKept_empty.foldl sts

theorem foldl_take_names {rows : List (Text × Text)} {sts : List Statement}
    (h : sts.map Statement.content =
      rows.map fun r => .importing ⟨.names, Text.trim r.2⟩)
    (hrows : ∀ r ∈ rows, r.1 = Text.fold r.2 ∧ Namespace.canonical r.2 = r.2) (i : Imports) :
    sts.foldl take i = { i with
      namespaces := rows.foldl (fun t r => t.insertNew r.1 r.2) i.namespaces } := by
  induction rows generalizing sts i with
  | nil =>
    obtain rfl := List.map_eq_nil_iff.mp h
    rfl
  | cons r rows ih =>
    obtain ⟨st, sts, rfl, hst, hsts⟩ := List.map_eq_cons_iff.mp h
    rw [List.forall_mem_cons] at hrows
    rw [List.foldl_cons, take_names hst, Namespace.canonical_trim, hrows.1.2, ← hrows.1.1,
      ih hsts hrows.2]
    rfl

theorem foldl_take_assemblies {rows : List (Text × Text)} {sts : List Statement}
    (h : sts.map Statement.content =
      rows.map fun r => .importing ⟨.assembly, Text.trim r.2⟩)
    (hrows : ∀ r ∈ rows, r.1 = Text.fold r.2 ∧ Assembly.IsNormal r.2) (i : Imports) :
    sts.foldl take i = { i with
      assemblies := rows.foldl (fun t r => t.insertNew r.1 r.2) i.assemblies } := by
  induction rows generalizing sts i with
  | nil =>
    obtain rfl := List.map_eq_nil_iff.mp h
    rfl
  | cons r rows ih =>
    obtain ⟨st, sts, rfl, hst, hsts⟩ := List.map_eq_cons_iff.mp h
    rw [List.forall_mem_cons] at hrows
    rw [List.foldl_cons, take_assembly hst, hrows.1.2.isTrimmed.trim_eq,
      hrows.1.2.normalize_eq, ← hrows.1.1, ih hsts hrows.2]
    rfl

/-- Imports are what their own names are merged into. -/
theorem IsKept.ofStatements_eq {i : Imports} (h : i.IsKept)
    (hcanonical : ∀ d ∈ i.namespaces.values, Namespace.canonical d = d) {sts : List Statement}
    (hsts : sts.map Statement.content =
      i.namespaces.values.map (fun d => .importing ⟨.names, Text.trim d⟩) ++
        i.assemblies.values.map fun d => .importing ⟨.assembly, Text.trim d⟩) :
    ofStatements sts = i := by
  obtain ⟨front, back, rfl, hfront, hback⟩ := List.map_eq_append_iff.mp hsts
  rw [Table.values, List.map_map] at hfront hback
  have hnames : ∀ r ∈ i.namespaces.rows, r.1 = Text.fold r.2 ∧ Namespace.canonical r.2 = r.2 := by
    intro r hr
    exact ⟨h.namespaces r hr, hcanonical r.2 (List.mem_map_of_mem hr)⟩
  rw [ofStatements, List.foldl_append, foldl_take_names hfront hnames,
    foldl_take_assemblies hback h.assemblies, Table.foldl_rows Table.rows_insertNew,
    Table.foldl_rows Table.rows_insertNew]

end Imports
end ScriptModule
