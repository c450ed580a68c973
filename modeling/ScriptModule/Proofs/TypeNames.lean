/-
  ScriptModule/Proofs/TypeNames.lean
  ==================================
  **Names of types.**  A module makes its enumerations and its classes known to the session
  under their names.  They are kept in two sections, and a name is new or taken in each
  section by itself.  So a type is listed once for every section that has its name: all
  names are different exactly if no class has the name of an enumeration, and nothing that
  is taken in sees to that (`typeNames_shared`).
-/
import ScriptModule.Proofs.DeclaredClasses

namespace ScriptModule

/-! ### Keys of two tables -/

theorem Table.nodup_keys_append {κ α β : Type} {s : Table κ α} {t : Table κ β} :
    (s.keys ++ t.keys).Nodup ↔ ∀ k ∈ s.keys, k ∉ t.keys := by
  rw [List.nodup_append]
  constructor
  · intro h k hs ht
    exact h.2.2 k hs k ht rfl
  · intro h
    refine ⟨s.nodup, t.nodup, ?_⟩
    rintro k hs _ ht rfl
    exact h k hs ht

/-- A table has a key once or not at all. -/
theorem Table.count_keys {κ α : Type} [DecidableEq κ] [BEq κ] [LawfulBEq κ] (t : Table κ α)
    (k : κ) : t.keys.count k = if (t.get? k).isSome then 1 else 0 := by
  have hnodup : t.keys.Nodup := t.nodup
  by_cases hk : k ∈ t.keys
  · have hfound : (t.get? k).isSome = true := (mem_keys_iff t k).mp hk
    rw [List.count_eq_one_of_mem hnodup hk, if_pos hfound]
  · rw [List.count_eq_zero_of_not_mem hk, get?_of_not_mem hk]
    rfl

/-- Two sections share no key if every name is free in one of them. -/
theorem Section.forall_not_mem_keys {s t : Section} (hs : s.names.map Text.fold = s.keys) :
    (∀ k ∈ s.keys, k ∉ t.keys) ↔ ∀ name, s.find? name = none ∨ t.find? name = none := by
  constructor
  · intro hapart name
    by_cases hname : Text.fold name ∈ s.keys
    · exact .inr (Table.get?_of_not_mem (hapart _ hname))
    · exact .inl (Table.get?_of_not_mem hname)
  · intro hfree
    rw [← hs, List.forall_mem_map]
    intro name hname hmem
    have hthere : Text.fold name ∈ s.keys := hs ▸ List.mem_map_of_mem hname
    rcases hfree name with hnone | hnone
    · exact Table.not_mem_keys_of_get? hnone hthere
    · exact Table.not_mem_keys_of_get? hnone hmem

namespace Draft

variable {d d' : Draft} {kind : SectionKind}

/-! ### What was declared is there -/

/-- A contribution that is taken in has its name in the section of its kind, among those
    that were there before. -/
theorem keys_take (kind : SectionKind) {c : Contribution} (hc : c.IsStandard) (h : d.take c = .ok d') :
    (d.registry.sectionOf kind).keys ⊆ (d'.registry.sectionOf kind).keys ∧
      ∀ e ∈ c.entryOf kind, Text.fold e.key ∈ (d'.registry.sectionOf kind).keys := by
  have hstep := registry_take hc h
  unfold Contribution.entryOf
  cases hentry : c.entry? with
  | none =>
    simp only [hentry] at hstep
    exact ⟨hstep ▸ List.Subset.refl _, nofun⟩
  | some entry =>
    obtain ⟨k, e⟩ := entry
    simp only [hentry] at hstep
    refine ⟨List.map_subset _ fun _ => hstep.mem, ?_⟩
    intro e' he'
    obtain ⟨rfl, rfl⟩ : k = kind ∧ e = e' := by simpa using he'
    rcases hstep.outcome with ⟨hsame, old, hold, -⟩ | ⟨-, -, hrows⟩
    · rw [hsame]
      exact List.mem_map_of_mem (Table.mem_rows_of_get? hold)
    · rw [Table.keys, hrows]
      simp

/-- If no contribution is refused, every name that they ask for is there at the end. -/
theorem keys_takeAll {cs : List Contribution} (hcs : AllStandard cs)
    (h : (d.takeAll cs).2 = none) :
    (d.registry.sectionOf kind).keys ⊆ ((d.takeAll cs).1.registry.sectionOf kind).keys ∧
      ∀ e ∈ cs.filterMap (Contribution.entryOf kind),
        Text.fold e.key ∈ ((d.takeAll cs).1.registry.sectionOf kind).keys := by
  induction cs generalizing d with
  | nil => exact ⟨List.Subset.refl _, nofun⟩
  | cons c cs ih =>
    rw [AllStandard, List.forall_mem_cons] at hcs
    rw [takeAll] at h ⊢
    cases htake : d.take c with
    | error f =>
      rw [htake] at h
      cases h
    | ok d' =>
      simp only [htake] at h ⊢
      obtain ⟨hkept, hnew⟩ := keys_take kind hcs.1 htake
      obtain ⟨hmore, hrest⟩ := ih hcs.2 h
      refine ⟨List.Subset.trans hkept hmore, ?_⟩
      intro e he
      rw [List.mem_filterMap] at he
      obtain ⟨c', hc', he⟩ := he
      rcases List.mem_cons.mp hc' with rfl | hc'
      · exact hmore (hnew e he)
      · exact hrest e (List.mem_filterMap.mpr ⟨c', hc', he⟩)

/-- Calls of which none is refused take in all that they contribute. -/
theorem callAll_eq_takeAll {known : KnownAliases} {calls : List Call}
    (h : (d.takeAll (calls.flatMap (Call.contributions known))).2 = none) :
    d.callAll known calls = (d.takeAll (calls.flatMap (Call.contributions known))).1 := by
  induction calls generalizing d with
  | nil => rfl
  | cons c calls ih =>
    rw [List.flatMap_cons, takeAll_append] at h ⊢
    change (d.call known c).callAll known calls = _
    rw [call_eq]
    cases htake : d.takeAll (c.contributions known) with
    | mk d' outcome =>
      rw [htake] at h
      cases outcome with
      | some f => cases h
      | none => exact ih h

/-- The keys of a section are the names of declared entries. -/
theorem IsSound.exists_declared {known : KnownAliases} {calls : List Call} {k : Text}
    (hd : (({} : Draft).callAll known calls).IsSound)
    (hk : k ∈ ((({} : Draft).callAll known calls).registry.sectionOf kind).keys) :
    ∃ e ∈ declared known kind calls, Text.fold e.key = k := by
  rw [← hd.fold_names kind, Section.names, List.map_map] at hk
  obtain ⟨e, he, rfl⟩ := List.mem_map.mp hk
  exact ⟨e, (entries_callAll known kind calls).subset he, rfl⟩

/-- Without a refusal they are the names of all declared entries. -/
theorem mem_keys_callAll {known : KnownAliases} {calls : List Call} {k : Text}
    (hdone : (({} : Draft).takeAll (calls.flatMap (Call.contributions known))).2 = none) :
    k ∈ ((({} : Draft).callAll known calls).registry.sectionOf kind).keys ↔
      ∃ e ∈ declared known kind calls, Text.fold e.key = k := by
  constructor
  · exact (isSound_callAll known calls).exists_declared
  · rintro ⟨e, he, rfl⟩
    have hall : AllStandard (calls.flatMap (Call.contributions known)) :=
      AllStandard.flatMap fun c _ => c.allStandard_contributions known
    rw [callAll_eq_takeAll hdone]
    exact (keys_takeAll hall hdone).2 e he

/-- Without a refusal two sections share no key if all that is declared for them differs. -/
theorem forall_not_mem_keys_callAll {known : KnownAliases} {calls : List Call}
    (hdone : (({} : Draft).takeAll (calls.flatMap (Call.contributions known))).2 = none)
    (kind kind' : SectionKind) :
    let d := ({} : Draft).callAll known calls
    (∀ k ∈ (d.registry.sectionOf kind).keys, k ∉ (d.registry.sectionOf kind').keys) ↔
      ∀ e ∈ declared known kind calls, ∀ c ∈ declared known kind' calls,
        Text.sameName e.key c.key = false := by
  intro d
  simp only [d, mem_keys_callAll hdone, Text.sameName, beq_eq_false_iff_ne]
  constructor
  · intro hapart e he c hc hsame
    exact hapart _ ⟨e, he, rfl⟩ ⟨c, hc, hsame.symm⟩
  · rintro hdiffer _ ⟨e, he, rfl⟩ ⟨c, hc, hsame⟩
    exact hdiffer e he c hc hsame.symm

/-! ### The list of types -/

/-- The types are those of the two sections. -/
theorem CanRender.typeNames_perm (hd : d.CanRender) :
    d.typeNames.Perm ((d.registry.sectionOf .enumeration).names ++
      (d.registry.sectionOf .classType).names) := by
  have hordered : d.orderedClasses.Perm d.classes.values := by
    rw [orderedClasses, hd.namedClasses?_eq]
    exact ClassDef.ordered_perm d.classes.values
  rw [typeNames, hd.names]
  exact (hordered.map _).append_left _

theorem fold_typeNames_perm (hd : d.CanRender) (hsound : d.IsSound) :
    (d.typeNames.map Text.fold).Perm ((d.registry.sectionOf .enumeration).keys ++
      (d.registry.sectionOf .classType).keys) := by
  rw [← hsound.fold_names, ← hsound.fold_names, ← List.map_append]
  exact hd.typeNames_perm.map Text.fold

theorem typeRegion_suffix (h : d.typeNames ≠ []) :
    regionOf "TypeRegistry" "\n" [Snippet.typeRegistry d.typeNames] <:+ d.regions := by
  unfold regions
  rw [if_neg (by simpa using h)]
  exact List.suffix_append _ _

/-- **A type is listed once for each section that has its name.**  Behind any calls, refused
    ones included, the list that is registered has the names of the enumerations and those
    of the classes.  Each section has a name once at most, in any spelling; so a name is
    listed twice exactly if it stands for an enumeration and for a class.  If no call is
    refused, all listed names are different exactly if no class was declared under the name
    of an enumeration. -/
theorem typeNames_shared (known : KnownAliases) (calls : List Call) :
    let d := ({} : Draft).callAll known calls
    let enums := d.registry.sectionOf .enumeration
    let classes := d.registry.sectionOf .classType
    d.typeNames.Perm (enums.names ++ classes.names) ∧
    (∀ name, d.typeNames.countP (Text.sameName · name) =
      (if (enums.find? name).isSome then 1 else 0) +
        if (classes.find? name).isSome then 1 else 0) ∧
    ((d.typeNames.map Text.fold).Nodup ↔
      ∀ name, enums.find? name = none ∨ classes.find? name = none) ∧
    ((({} : Draft).takeAll (calls.flatMap (Call.contributions known))).2 = none →
      ((d.typeNames.map Text.fold).Nodup ↔
        ∀ e ∈ declared known .enumeration calls, ∀ c ∈ declared known .classType calls,
          Text.sameName e.key c.key = false)) ∧
    (d.typeNames ≠ [] →
      regionOf "TypeRegistry" "\n" [Snippet.typeRegistry d.typeNames] <:+ d.regions) := by
  intro d enums classes
  have hsound : d.IsSound := isSound_callAll known calls
  have hrender : d.CanRender := (canRender_empty.callAll known calls).1
  have hperm : (d.typeNames.map Text.fold).Perm (enums.keys ++ classes.keys) :=
    fold_typeNames_perm hrender hsound
  refine ⟨hrender.typeNames_perm, ?_, ?_, ?_, typeRegion_suffix⟩
  · intro name
    have hcount : d.typeNames.countP (Text.sameName · name) =
        (d.typeNames.map Text.fold).count (Text.fold name) := by
      rw [List.count, List.countP_map]
      rfl
    rw [hcount, hperm.count_eq, List.count_append, Table.count_keys, Table.count_keys]
    rfl
  · rw [hperm.nodup_iff, Table.nodup_keys_append]
    exact Section.forall_not_mem_keys (hsound.fold_names .enumeration)
  · intro hdone
    rw [hperm.nodup_iff, Table.nodup_keys_append]
    exact forall_not_mem_keys_callAll hdone .enumeration .classType

/-- Two files with an enumeration, a class of another name and a base of it, which is listed
    in front of it. -/
theorem typeNames_shared_bases :
    let script (name source : String) : Call := .file (.script source.toList name.toList none)
    let calls := [script "a.ps1" "class Shade : Tint \x7b \x7d\nenum Color \x7bRed\x7d",
      script "b.ps1" "class Tint \x7b \x7d"]
    let d := ({} : Draft).callAll Table.empty calls
    (d.typeNames.map Text.fold).Nodup ∧ d.typeNames.countP (Text.sameName · "SHADE") = 1 ∧
      regionOf "TypeRegistry" "\n" [Snippet.typeRegistry
        ["Color".toList, "Tint".toList, "Shade".toList]] <:+ d.regions := by
  intro script calls d
  have hnames : d.typeNames = ["Color".toList, "Tint".toList, "Shade".toList] := by decide +kernel
  have hdone : (({} : Draft).takeAll (calls.flatMap (Call.contributions Table.empty))).2 =
      none := by
    decide +kernel
  obtain ⟨-, hcount, -, hdiffer, hregion⟩ := typeNames_shared Table.empty calls
  refine ⟨(hdiffer hdone).mpr (by decide +kernel), ?_, ?_⟩
  · exact (hcount "SHADE").trans (by decide +kernel)
  · rw [← hnames]
    apply hregion
    rw [hnames]
    exact nofun

/-- A file with an enumeration and a class of one name is taken in, and the name is listed
    twice. -/
theorem not_nodup_typeNames :
    ¬ ∀ (is : List Intake) (d : Draft), ({} : Draft).ingestAll Table.empty is = (d, none) →
      (d.typeNames.map Text.fold).Nodup := by
  intro h
  let is : List Intake := [.script "enum Color \x7b\nRed\n\x7d\nclass Color \x7b\n\x7d".toList
    "a.ps1".toList none]
  have hdone : (({} : Draft).ingestAll Table.empty is).2 = none := by decide +kernel
  have hnames : (({} : Draft).ingestAll Table.empty is).1.typeNames = ["Color", "Color"] := by
    decide +kernel
  have hnodup := h is _ (Prod.ext rfl hdone)
  rw [hnames] at hnodup
  exact absurd hnodup (by decide)

end Draft
end ScriptModule
