/-
  ScriptModule/Proofs/NamespaceSpelling.lean
  ==========================================
  **One entry for each namespace.**  The spelling in which a namespace is shown has the same
  letters as the given one, in other cases and without the white space around it, and it is
  its own spelling.  So of the imports of one namespace the first is kept, and imports of
  different namespaces are kept apart.  All this is about names of ASCII characters: in
  other scripts a letter may become two, or another one, when its case is changed.
-/
import Mathlib.Data.List.Dedup
import ScriptModule.Proofs.ImportNames

namespace ScriptModule

open Unicode

/-! ### ASCII letters -/

theorem forall_ascii {p : Char → Prop} (h : ∀ n : Fin 128, p (Char.ofNat n)) {c : Char}
    (hc : c.toNat < 128) : p c := by
  have hchar := h ⟨c.toNat, hc⟩
  rwa [Char.ofNat_toNat] at hchar

/-- What a change of case does to an ASCII character. -/
structure KeepsCase (c : Char) : Prop where
  upper : c.toUpper.toNat < 128
  lower : c.toLower.toNat < 128
  upper_upper : c.toUpper.toUpper = c.toUpper
  upper_lower : c.toUpper.toLower = c.toLower
  lower_lower : c.toLower.toLower = c.toLower
  blank : isBlank c.toLower = isBlank c
  dot : c.toLower = '.' → c = '.'

theorem keepsCase {c : Char} (hc : c.toNat < 128) : KeepsCase c := by
  refine forall_ascii (p := KeepsCase) (fun n => ?_) hc
  constructor <;> revert n <;> decide +kernel

namespace Text

/-- Whether a text has ASCII characters only. -/
def IsAscii (t : Text) : Prop := ∀ c ∈ t, c.toNat < 128

instance (t : Text) : Decidable (IsAscii t) :=
  List.decidableBAll (fun c : Char => c.toNat < 128) t

/-- An ASCII text in small letters. -/
def small (t : Text) : Text := t.map Char.toLower

theorem isAscii_cons {c : Char} {t : Text} : IsAscii (c :: t) ↔ c.toNat < 128 ∧ IsAscii t :=
  List.forall_mem_cons

theorem IsAscii.subset {t u : Text} (h : IsAscii t) (hsub : u ⊆ t) : IsAscii u :=
  fun c hc => h c (hsub hc)

theorem IsAscii.trim {t : Text} (h : IsAscii t) : IsAscii (Text.trim t) :=
  h.subset fun _ => mem_of_mem_trim

theorem fold_of_isAscii {t : Text} (h : IsAscii t) : fold t = small t := by
  rw [small, List.map_eq_flatMap]
  exact List.flatMap_congr fun c hc => if_pos (h c hc)

theorem lower_of_isAscii {t : Text} (h : IsAscii t) : lower t = small t := by
  have hafter : ∀ before, lowerAfter before t = small t := by
    induction t with
    | nil => exact fun _ => rfl
    | cons c t ih =>
      intro before
      obtain ⟨hc, ht⟩ := isAscii_cons.mp h
      have hsigma : c ≠ 'Σ' := by
        rintro rfl
        exact absurd hc (by decide)
      rw [lowerAfter, if_neg hsigma, lowerChar, if_pos hc, ih ht]
      rfl
  exact hafter []

theorem capitalize_of_isAscii {c : Char} {t : Text} (h : IsAscii (c :: t)) :
    capitalize (c :: t) = c.toUpper :: small t := by
  obtain ⟨hc, ht⟩ := isAscii_cons.mp h
  rw [capitalize, upperChar, if_pos hc, lower_of_isAscii ht]
  rfl

theorem IsAscii.small {t : Text} (h : IsAscii t) : IsAscii (Text.small t) := by
  intro d hd
  obtain ⟨c, hc, rfl⟩ := List.mem_map.mp hd
  exact (keepsCase (h c hc)).lower

/-! ### Texts in other cases -/

/-- An ASCII text, and another one with the same letters in other cases. -/
structure Recased (t u : Text) : Prop where
  source : IsAscii t
  target : IsAscii u
  small : Text.small u = Text.small t

variable {t u : Text}

theorem Recased.refl (h : IsAscii t) : Recased t t := ⟨h, h, rfl⟩

theorem Recased.fold_eq (h : Recased t u) : fold u = fold t := by
  rw [fold_of_isAscii h.target, fold_of_isAscii h.source, h.small]

theorem small_small (h : IsAscii t) : Text.small (Text.small t) = Text.small t := by
  rw [Text.small, Text.small, List.map_map]
  exact List.map_congr_left fun c hc => (keepsCase (h c hc)).lower_lower

theorem isBlank_of_toLower_eq {c d : Char} (hc : c.toNat < 128) (hd : d.toNat < 128)
    (h : d.toLower = c.toLower) : isBlank d = isBlank c := by
  rw [← (keepsCase hd).blank, h, (keepsCase hc).blank]

/-- The ends of a text are as blank in other cases. -/
theorem Recased.isTrimmed (h : Recased t u) (ht : IsTrimmed t) : IsTrimmed u := by
  constructor
  · intro d hd
    have hfirst := congrArg List.head? h.small
    rw [Text.small, Text.small, List.head?_map, List.head?_map, Option.mem_def.mp hd] at hfirst
    obtain ⟨c, hc, hsame⟩ := Option.map_eq_some_iff.mp hfirst.symm
    rw [isBlank_of_toLower_eq (h.source c (List.mem_of_head? hc))
      (h.target d (List.mem_of_head? hd)) hsame.symm]
    exact ht.front c hc
  · intro d hd
    have hlast := congrArg List.getLast? h.small
    rw [Text.small, Text.small, List.getLast?_map, List.getLast?_map, Option.mem_def.mp hd] at hlast
    obtain ⟨c, hc, hsame⟩ := Option.map_eq_some_iff.mp hlast.symm
    rw [isBlank_of_toLower_eq (h.source c (List.mem_of_getLast? hc))
      (h.target d (List.mem_of_getLast? hd)) hsame.symm]
    exact ht.back c hc

theorem Recased.dot_not_mem (h : Recased t u) (ht : '.' ∉ t) : '.' ∉ u := by
  intro hmem
  have hdot : '.' ∈ Text.small u := List.mem_map.mpr ⟨'.', hmem, rfl⟩
  rw [h.small] at hdot
  obtain ⟨c, hc, hsame⟩ := List.mem_map.mp hdot
  rw [(keepsCase (h.source c hc)).dot hsame] at hc
  exact ht hc

end Text

/-! ### Segments of a namespace -/

namespace Namespace

open Text

theorem recased_segment {s : Text} (h : IsAscii s) : Recased s (segment s) := by
  unfold segment
  split
  · exact .refl h
  · cases s with
    | nil => exact .refl h
    | cons c s =>
      rw [capitalize_of_isAscii h]
      obtain ⟨hc, hs⟩ := isAscii_cons.mp h
      refine ⟨h, isAscii_cons.mpr ⟨(keepsCase hc).upper, hs.small⟩, ?_⟩
      change c.toUpper.toLower :: small (small s) = c.toLower :: small s
      rw [(keepsCase hc).upper_lower, small_small hs]

/-- A segment that has its capital keeps its case, be it all capitals or not. -/
theorem segment_segment {s : Text} (h : IsAscii s) : segment (segment s) = segment s := by
  have hagain : capitalize (capitalize s) = capitalize s := by
    cases s with
    | nil => rfl
    | cons c s =>
      obtain ⟨hc, hs⟩ := isAscii_cons.mp h
      have hcapital : IsAscii (c.toUpper :: small s) :=
        isAscii_cons.mpr ⟨(keepsCase hc).upper, hs.small⟩
      rw [capitalize_of_isAscii h, capitalize_of_isAscii hcapital,
        (keepsCase hc).upper_upper, small_small hs]
  by_cases hacronym : (isAllCapitals s && decide (1 < s.length)) = true
  · have hself : segment s = s := if_pos hacronym
    rw [hself, hself]
  · have hcapital : segment s = capitalize s := if_neg hacronym
    rw [hcapital, segment]
    split
    · rfl
    · exact hagain

/-- The segments of a name, each with its capital. -/
def titled (n : Text) : Text := join ".".toList ((fields '.' n).map segment)

theorem small_join (sep : Text) (fs : List Text) :
    small (join sep fs) = join (small sep) (fs.map small) := by
  cases fs with
  | nil => rfl
  | cons f fs =>
    rw [List.map_cons, join_cons, join_cons]
    simp [small, List.map_flatMap, List.flatMap_map]

theorem isAscii_join {sep : Text} {fs : List Text} (hsep : IsAscii sep)
    (hfs : ∀ f ∈ fs, IsAscii f) : IsAscii (join sep fs) := by
  cases fs with
  | nil => exact List.forall_mem_nil _
  | cons f fs =>
    rw [List.forall_mem_cons] at hfs
    intro c hc
    rw [join_cons, List.mem_append, List.mem_flatMap] at hc
    rcases hc with hc | ⟨g, hg, hc⟩
    · exact hfs.1 c hc
    · rcases List.mem_append.mp hc with hc | hc
      · exact hsep c hc
      · exact hfs.2 g hg c hc

theorem isAscii_fields {n : Text} (h : IsAscii n) : ∀ s ∈ fields '.' n, IsAscii s := by
  intro s hs c hc
  apply h
  rw [← join_fields '.' n]
  obtain ⟨f, fs, hfields⟩ := exists_cons_fields '.' n
  rw [hfields] at hs ⊢
  rw [join_cons, List.mem_append, List.mem_flatMap]
  rcases List.mem_cons.mp hs with rfl | hs
  · exact .inl hc
  · exact .inr ⟨s, hs, List.mem_append_right _ hc⟩

theorem recased_titled {n : Text} (h : IsAscii n) : Recased n (titled n) := by
  have hsegments : ∀ s ∈ (fields '.' n).map segment, IsAscii s := by
    intro s hs
    obtain ⟨f, hf, rfl⟩ := List.mem_map.mp hs
    exact (recased_segment (isAscii_fields h f hf)).target
  refine ⟨h, isAscii_join (by decide) hsegments, ?_⟩
  have hsmall : ((fields '.' n).map segment).map small = (fields '.' n).map small := by
    rw [List.map_map]
    exact List.map_congr_left fun f hf => (recased_segment (isAscii_fields h f hf)).small
  rw [titled, small_join, hsmall, ← small_join]
  exact congrArg small (join_fields '.' n)

/-- The segments of a name that has its capitals are those that were given capitals. -/
theorem fields_titled {n : Text} (h : IsAscii n) :
    fields '.' (titled n) = (fields '.' n).map segment := by
  have hplain : ∀ s ∈ (fields '.' n).map segment, '.' ∉ s := by
    intro s hs
    obtain ⟨f, hf, rfl⟩ := List.mem_map.mp hs
    exact (recased_segment (isAscii_fields h f hf)).dot_not_mem (not_mem_fields hf)
  obtain ⟨f, fs, hfields⟩ := exists_cons_fields '.' n
  rw [titled, hfields]
  rw [hfields, List.map_cons] at hplain
  exact fields_join_plain hplain

theorem titled_titled {n : Text} (h : IsAscii n) : titled (titled n) = titled n := by
  have hsegments : ((fields '.' n).map segment).map segment = (fields '.' n).map segment := by
    rw [List.map_map]
    exact List.map_congr_left fun f hf => segment_segment (isAscii_fields h f hf)
  rw [titled, fields_titled h, hsegments]
  rfl

/-! ### The spelling of a namespace -/

theorem canonical_eq (n : Text) :
    canonical n = (wellKnown? (trim n)).getD (titled (trim n)) := rfl

theorem wellKnown?_congr {a b : Text} (h : fold a = fold b) : wellKnown? a = wellKnown? b := by
  unfold wellKnown? sameName
  rw [h]

/-- What a well-known namespace is found as. -/
theorem wellKnown?_eq_some {n k : Text} (h : wellKnown? n = some k) :
    ∃ l ∈ wellKnown, l.toList = k ∧ fold k = fold n := by
  obtain ⟨l, hl, rfl⟩ := Option.map_eq_some_iff.mp h
  have hname := List.find?_some hl
  exact ⟨l, List.mem_of_find?_eq_some hl, rfl, beq_iff_eq.mp hname⟩

/-- Each listed name is an ASCII text without blanks, and found as itself. -/
theorem wellKnown_listed : ∀ l ∈ wellKnown, IsAscii l.toList ∧
    (l.toList.any isBlank = false) ∧ wellKnown? l.toList = some l.toList := by
  decide +kernel

/-- The spelling of an ASCII name is the trimmed name in other cases. -/
theorem recased_canonical {n : Text} (h : IsAscii n) : Recased (trim n) (canonical n) := by
  rw [canonical_eq]
  rcases hknown : wellKnown? (trim n) with _ | k
  · exact recased_titled h.trim
  · obtain ⟨l, hl, rfl, hfold⟩ := wellKnown?_eq_some hknown
    have hlisted := (wellKnown_listed l hl).1
    rw [fold_of_isAscii hlisted, fold_of_isAscii h.trim] at hfold
    exact ⟨h.trim, hlisted, hfold⟩

theorem trim_canonical {n : Text} (h : IsAscii n) : trim (canonical n) = canonical n :=
  ((recased_canonical h).isTrimmed (isTrimmed_trim n)).trim_eq

theorem canonical_canonical {n : Text} (h : IsAscii n) :
    canonical (canonical n) = canonical n := by
  rw [canonical_eq (canonical n), trim_canonical h,
    wellKnown?_congr (recased_canonical h).fold_eq, canonical_eq n]
  cases wellKnown? (trim n) with
  | some k => rfl
  | none => exact titled_titled h.trim

/-- Whether two names are equal up to case and the white space around them. -/
def same (a b : Text) : Bool := decide (small (trim a) = small (trim b))

theorem same_iff {a b : Text} : same a b = true ↔ small (trim a) = small (trim b) :=
  decide_eq_true_iff

theorem same_comm (a b : Text) : same a b = same b a := decide_eq_decide.mpr eq_comm

theorem same_canonical {m : Text} (h : IsAscii m) (n : Text) :
    same (canonical m) n = same m n := by
  rw [same, same, trim_canonical h, (recased_canonical h).small]

theorem canonical_of_same {n : Text} (h : IsAscii n) {l : String} (hl : l ∈ wellKnown)
    (hsame : same n l.toList = true) : canonical n = l.toList := by
  obtain ⟨hascii, hplain, hlisted⟩ := wellKnown_listed l hl
  have htrim : trim l.toList = l.toList := trim_of_not_blank (by simpa using hplain)
  rw [same_iff, htrim] at hsame
  have hfold : fold (trim n) = fold l.toList := by
    rw [fold_of_isAscii h.trim, fold_of_isAscii hascii, hsame]
  rw [canonical_eq, wellKnown?_congr hfold, hlisted]
  rfl

theorem fold_canonical {n : Text} (h : IsAscii n) : fold (canonical n) = small (trim n) := by
  rw [(recased_canonical h).fold_eq, fold_of_isAscii h.trim]

end Namespace

namespace Imports

open Text

/-- The namespace that a statement imports, if it does. -/
def namespace? (st : Statement) : Option Text :=
  match st.content with
  | .importing ⟨.names, n⟩ => some n
  | _ => none

theorem namespaces_foldl_take (sts : List Statement) (i : Imports) :
    (sts.foldl take i).namespaces = (sts.filterMap namespace?).foldl
      (fun t n => t.insertNew (fold (Namespace.canonical n)) (Namespace.canonical n))
      i.namespaces := by
  induction sts generalizing i with
  | nil => rfl
  | cons st sts ih =>
    rw [List.foldl_cons, ih, List.filterMap_cons]
    unfold take namespace?
    rcases st.content with _ | ⟨kind, n⟩ | _ | _ | _ | _ | _ <;> try rfl
    cases kind <;> rfl

/-- Of the imports of one namespace the first is kept, under its name in small letters. -/
theorem rows_namespaces {sts : List Statement} (h : ∀ n ∈ sts.filterMap namespace?, IsAscii n) :
    (ofStatements sts).namespaces.rows =
      ((sts.filterMap namespace?).eraseDupsBy Namespace.same).map
        fun n => (small (trim n), Namespace.canonical n) := by
  have hkeys : (sts.filterMap namespace?).foldl
      (fun t n => t.insertNew (fold (Namespace.canonical n)) (Namespace.canonical n)) Table.empty =
      (sts.filterMap namespace?).foldl
        (fun t n => t.insertNew (small (trim n)) (Namespace.canonical n)) Table.empty := by
    apply List.foldl_ext
    intro t n hn
    rw [Namespace.fold_canonical (h n hn)]
  rw [ofStatements, namespaces_foldl_take]
  refine (congrArg Table.rows hkeys).trans ?_
  rw [Table.rows_foldl_insertNew (fun n => small (trim n))]
  rw [List.filter_eq_self.mpr fun n hn => ?_]
  · exact List.nil_append _
  · exact decide_eq_true List.not_mem_nil

/-- The row of an entry has the key of every name of its namespace. -/
theorem mem_rows_of_same {sts : List Statement} (h : ∀ n ∈ sts.filterMap namespace?, IsAscii n)
    {d n : Text} (hd : d ∈ (ofStatements sts).namespaces.values)
    (hsame : Namespace.same d n = true) :
    (small (trim n), d) ∈ (ofStatements sts).namespaces.rows := by
  obtain ⟨row, hrow, rfl⟩ := List.mem_map.mp hd
  have hshown := hrow
  rw [rows_namespaces h] at hshown
  obtain ⟨m, hm, rfl⟩ := List.mem_map.mp hshown
  rw [Namespace.same_canonical (h m (mem_of_mem_eraseDupsBy hm)), Namespace.same_iff] at hsame
  rwa [← hsame]

/-- **One entry for each namespace.**  Of imports with ASCII names those are kept, in their
    order, that are the first ones of their namespace, and so each namespace has one entry.
    The entry has the spelling of the first name: the same letters in other cases, without
    the white space around it.  The spelling is its own spelling, and that of a well-known
    namespace is the listed one. -/
theorem ofStatements_namespaces {sts : List Statement}
    (h : ∀ n ∈ sts.filterMap namespace?, IsAscii n) :
    let names := sts.filterMap namespace?
    let kept := (ofStatements sts).namespaces
    kept.rows = (names.eraseDupsBy Namespace.same).map
      (fun n => (small (trim n), Namespace.canonical n)) ∧
    (∀ n ∈ names, ∃! d, d ∈ kept.values ∧ Namespace.same d n = true) ∧
    ∀ n, IsAscii n →
      Namespace.canonical (Namespace.canonical n) = Namespace.canonical n ∧
      small (Namespace.canonical n) = small (trim n) ∧
      ∀ l ∈ Namespace.wellKnown, Namespace.same n l.toList = true →
        Namespace.canonical n = l.toList := by
  intro names kept
  have hrows : kept.rows = _ := rows_namespaces h
  refine ⟨hrows, ?_, ?_⟩
  · intro n hn
    obtain ⟨m, hm, hsame⟩ := exists_mem_eraseDupsBy (r := Namespace.same)
      (fun x => Namespace.same_iff.mpr rfl) hn
    have hshown : Namespace.canonical m ∈ kept.values := by
      rw [Table.values, hrows]
      exact List.mem_map.mpr ⟨_, List.mem_map.mpr ⟨m, hm, rfl⟩, rfl⟩
    have hlike : Namespace.same (Namespace.canonical m) n = true := by
      rw [Namespace.same_canonical (h m (mem_of_mem_eraseDupsBy hm)), Namespace.same_comm]
      exact hsame
    refine ⟨Namespace.canonical m, ⟨hshown, hlike⟩, ?_⟩
    rintro d ⟨hd, hdn⟩
    have hfirst := Table.get?_of_mem_rows (mem_rows_of_same h hshown hlike)
    rw [Table.get?_of_mem_rows (mem_rows_of_same h hd hdn)] at hfirst
    exact Option.some.inj hfirst
  · intro n hn
    exact ⟨Namespace.canonical_canonical hn, (Namespace.recased_canonical hn).small,
      fun l hl => Namespace.canonical_of_same hn hl⟩

/-- A well-known and a new namespace, each of them given twice. -/
theorem ofStatements_namespaces_twice :
    let imported (k : ImportKind) (n : String) : Statement := ⟨.importing ⟨k, n⟩, none, none, []⟩
    let sts := [imported .names " SYSTEM.io", imported .names "contoso.TOOLS",
      imported .assembly "Contoso.Tools", imported .names "Contoso.tools ",
      imported .names "system.IO"]
    (∀ n ∈ sts.filterMap namespace?, IsAscii n) ∧
      (ofStatements sts).namespaces.rows = [("system.io".toList, "System.IO".toList),
        ("contoso.tools".toList, "Contoso.TOOLS".toList)] ∧
      ∃! d, d ∈ (ofStatements sts).namespaces.values ∧
        Namespace.same d "Contoso.tools ".toList = true := by
  intro imported sts
  have hascii : ∀ n ∈ sts.filterMap namespace?, IsAscii n := by decide
  have hgiven : "Contoso.tools ".toList ∈ sts.filterMap namespace? := by decide
  obtain ⟨hrows, hentry, -⟩ := ofStatements_namespaces hascii
  exact ⟨hascii, hrows.trans (by decide +kernel), hentry _ hgiven⟩

end Imports
end ScriptModule
