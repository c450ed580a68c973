/-
  ScriptModule/Proofs/MergedRequirement.lean
  ==========================================
  **Merged requirements are merged into themselves.**  Each part of what is merged is what
  it would itself be merged into: a pair of numbers that can be printed and read, a sorted
  set of editions, and constraints that can be asked for as they are.  One fact keeps this,
  and so does a run.
-/
import ScriptModule.Proofs.Conjunction
import ScriptModule.Proofs.KeyedSort
import ScriptModule.Proofs.PrintedVersion
import ScriptModule.Proofs.RequirementText
import ScriptModule.Proofs.TableRows

namespace ScriptModule

open Unicode

/-! ### Editions -/

namespace Requirement

theorem edition_edition (name : Text) : edition (edition name) = edition name := by
  have hcases : edition name = "Core".toList ∨ edition name = "Desktop".toList ∨
      edition name = name := by
    unfold edition
    simp only
    split
    · exact .inl rfl
    · split
      · exact .inr (.inl rfl)
      · exact .inr (.inr rfl)
  rcases hcases with h | h | h
  · rw [h]
    decide
  · rw [h]
    decide
  · rw [h, h]

theorem withoutRepeats_sublist (ts : List Text) : (withoutRepeats ts).Sublist ts := by
  fun_induction withoutRepeats ts with
  | case1 a r ih => exact ih.cons a
  | case2 a b r hne ih => exact ih.cons_cons a
  | case3 ts => exact List.Sublist.refl ts

theorem withoutRepeats_cons (a : Text) (r : List Text) :
    ∃ r', withoutRepeats (a :: r) = a :: r' := by
  induction r generalizing a with
  | nil => exact ⟨[], rfl⟩
  | cons b r ih =>
    rw [withoutRepeats]
    split
    · next heq =>
      subst heq
      exact ih a
    · exact ⟨_, rfl⟩

theorem withoutRepeats_withoutRepeats (ts : List Text) :
    withoutRepeats (withoutRepeats ts) = withoutRepeats ts := by
  fun_induction withoutRepeats ts with
  | case1 a r ih => exact ih
  | case2 a b r hne ih =>
    obtain ⟨r', hr'⟩ := withoutRepeats_cons b r
    rw [hr'] at ih ⊢
    rw [withoutRepeats, if_neg hne, ih]
  | case3 ts hshort =>
    rcases ts with _ | ⟨a, _ | ⟨b, r⟩⟩
    · rfl
    · rfl
    · exact absurd rfl (hshort a b r)

/-- A set of editions is the set of its members. -/
theorem editionSet_editionSet (names : List Text) :
    editionSet (editionSet names) = editionSet names := by
  have hsublist := withoutRepeats_sublist ((names.map edition).mergeSort Text.le)
  have hmap : (editionSet names).map edition = editionSet names := by
    refine (List.map_congr_left ?_).trans (List.map_id _)
    intro e he
    obtain ⟨n, -, rfl⟩ := List.mem_map.mp (List.mem_mergeSort.mp (hsublist.subset he))
    exact edition_edition n
  have hsorted : (editionSet names).Pairwise fun a b => Text.le a b = true :=
    (pairwise_mergeSort_key id Text.le_iff _).sublist hsublist
  rw [editionSet, hmap, List.mergeSort_of_pairwise hsorted]
  exact withoutRepeats_withoutRepeats _

theorem editionSet_ne_nil {names : List Text} (h : names ≠ []) : editionSet names ≠ [] := by
  obtain ⟨n, ns, rfl⟩ := List.exists_cons_of_ne_nil h
  have hlength : (((n :: ns).map edition).mergeSort Text.le).length = ns.length + 1 := by simp
  obtain ⟨a, r, hsorted⟩ := List.exists_cons_of_length_eq_add_one hlength
  obtain ⟨r', hr'⟩ := withoutRepeats_cons a r
  rw [editionSet, hsorted, hr']
  exact List.cons_ne_nil a r'

end Requirement

/-! ### Constraints -/

namespace ModuleSpec

/-- The bounds of a constraint. -/
def bounds (m : ModuleSpec) : List Text :=
  m.minVersion.toList ++ m.maxVersion.toList ++ m.exactVersion.toList

theorem checkVersion_eq_ok {m : ModuleSpec} {role : VersionRole} {bound : Option Text} :
    m.checkVersion role bound = .ok () ↔
      ∀ t ∈ bound, ∃ v, Version.read? t = .ok (some v) := by
  cases bound with
  | none => simp [checkVersion]
  | some t =>
    rcases hread : Version.read? t with e | _ | v
    · simp [checkVersion, hread]
    · simp [checkVersion, hread]
    · simp [checkVersion, hread]

theorem checkVersions_eq_ok {m : ModuleSpec} :
    m.checkVersions = .ok () ↔ ∀ t ∈ m.bounds, ∃ v, Version.read? t = .ok (some v) := by
  simp only [checkVersions, bind_eq_ok, bounds, List.forall_mem_append, Option.mem_toList]
  constructor
  · rintro ⟨⟨⟩, hlow, ⟨⟩, hhigh, hexact⟩
    exact ⟨⟨checkVersion_eq_ok.mp hlow, checkVersion_eq_ok.mp hhigh⟩,
      checkVersion_eq_ok.mp hexact⟩
  · rintro ⟨⟨hlow, hhigh⟩, hexact⟩
    exact ⟨(), checkVersion_eq_ok.mpr hlow, (), checkVersion_eq_ok.mpr hhigh,
      checkVersion_eq_ok.mpr hexact⟩

theorem mem_merge {f : Text → Text → Text} (hf : ∀ u v, f u v = u ∨ f u v = v)
    {a b : Option Text} {t : Text} (ht : t ∈ Option.merge f a b) : t ∈ a ∨ t ∈ b := by
  rcases Option.merge_eq_or_eq hf a b with heq | heq
  · exact .inl (heq ▸ ht)
  · exact .inr (heq ▸ ht)

theorem mem_raised {a b : Option Text} {t : Text} (ht : t ∈ raised a b) : t ∈ a ∨ t ∈ b := by
  refine mem_merge ?_ ht
  intro u v
  split <;> simp

theorem mem_lowered {a b : Option Text} {t : Text} (ht : t ∈ lowered a b) : t ∈ a ∨ t ∈ b := by
  refine mem_merge ?_ ht
  intro u v
  split <;> simp

/-- What is merged takes every bound from one side or the other. -/
theorem bounds_merged_subset (c spec : ModuleSpec) :
    (c.merged spec).bounds ⊆ c.bounds ++ spec.bounds := by
  intro t ht
  simp only [bounds, merged, List.mem_append, Option.mem_toList] at ht ⊢
  rcases ht with (ht | ht) | ht
  · have hside := mem_raised ht
    tauto
  · have hside := mem_lowered ht
    tauto
  · have hside := Option.or_eq_some_iff.mp ht
    tauto

theorem texts_merged_subset (c spec : ModuleSpec) :
    (c.merged spec).texts ⊆ c.texts ++ spec.texts := by
  have hguid : ∀ {t}, t ∈ spec.givenGuid → t ∈ spec.guid := by
    intro t ht
    exact (Option.filter_eq_some_iff.mp ht).1
  intro t ht
  simp only [texts, merged, List.mem_append, List.mem_cons, Option.mem_toList] at ht ⊢
  rcases ht with ht | ((ht | ht) | ht) | ht
  · tauto
  · have hside := Option.or_eq_some_iff.mp ht
    have hgiven := @hguid t
    tauto
  · have hside := mem_raised ht
    tauto
  · have hside := mem_lowered ht
    tauto
  · have hside := Option.or_eq_some_iff.mp ht
    tauto

/-- A constraint that can be asked for as it is. -/
structure IsKept (m : ModuleSpec) : Prop where
  readable : ∀ t ∈ m.bounds, ∃ v, Version.read? t = .ok (some v)
  identity : m.guid ≠ some []
  apart : m.IsApart

theorem isKept_plain (name : Text) : ({ name := name } : ModuleSpec).IsKept where
  readable := nofun
  identity := nofun
  apart := isApart_plain name

theorem IsKept.tighten {c spec c' : ModuleSpec} (h : c.IsKept) (ht : c.tighten spec = .ok c') :
    c'.IsKept := by
  have hapart := isApart_tighten h.apart ht
  obtain ⟨hcheck, -, rfl⟩ := tighten_eq_ok.mp ht
  constructor
  · intro t ht
    rcases List.mem_append.mp (bounds_merged_subset c spec ht) with ht | ht
    · exact h.readable t ht
    · exact checkVersions_eq_ok.mp hcheck t ht
  · intro hempty
    rcases Option.or_eq_some_iff.mp hempty with hold | ⟨-, hgiven⟩
    · exact h.identity hold
    · exact absurd (Option.filter_eq_some_iff.mp hgiven).2 (by simp)
  · exact hapart

theorem within_tighten {q : Char → Prop} {c spec c' : ModuleSpec} (hc : c.Within q)
    (hspec : spec.Within q) (ht : c.tighten spec = .ok c') : c'.Within q := by
  obtain ⟨-, -, rfl⟩ := tighten_eq_ok.mp ht
  intro t ht
  rcases List.mem_append.mp (texts_merged_subset c spec ht) with ht | ht
  · exact hc t ht
  · exact hspec t ht

theorem name_tighten {c spec c' : ModuleSpec} (ht : c.tighten spec = .ok c') :
    c'.name = c.name := by
  obtain ⟨-, -, rfl⟩ := tighten_eq_ok.mp ht
  rfl

/-- Asked for alone, a merged constraint is taken in as it is. -/
theorem IsKept.tighten_plain {m : ModuleSpec} (h : m.IsKept) :
    ({ name := m.name } : ModuleSpec).tighten m = .ok m := by
  rw [tighten_eq_ok]
  refine ⟨checkVersions_eq_ok.mpr h.readable, ?_, ?_⟩
  · rw [fits_asked]
    have hapart := h.apart
    rw [IsApart] at hapart
    rcases hexact : m.exactVersion with _ | t
    · exact ⟨rfl, rfl, rfl, rfl, rfl⟩
    · obtain ⟨hlow, hhigh⟩ := hapart (by rw [hexact]; rfl)
      rw [hlow, hhigh]
      exact ⟨rfl, rfl, rfl, rfl, rfl⟩
  · have hidentity := h.identity
    obtain ⟨name, guid, low, high, exact⟩ := m
    rcases guid with _ | _ | ⟨c, g⟩
    · cases low <;> cases high <;> rfl
    · exact absurd rfl hidentity
    · cases low <;> cases high <;> rfl

end ModuleSpec

/-! ### Facts -/

/-- A fact that names an edition if it is about editions, and is made of the given
    characters if it is about a module. -/
structure Fact.IsGiven (q : Char → Prop) (f : Fact) : Prop where
  named : ∀ names, f = .editions names → names ≠ []
  within : ∀ spec, f = .module spec → spec.Within q

theorem Requires.isGiven_of_mem_facts {q : Char → Prop} {req : Requires}
    (h : ∀ m ∈ req.modules, m.Within q) : ∀ f ∈ req.facts, f.IsGiven q := by
  intro f hf
  constructor
  · rintro names rfl hnil
    simp [facts] at hf
    rw [hf.2] at hnil
    exact hf.1 hnil
  · rintro spec rfl
    exact h spec ((req.module_mem_facts spec).mp hf)

namespace Requirement

/-- What is merged so far, part by part: it can be asked for as it is. -/
structure IsKept (q : Char → Prop) (r : Requirement) : Prop where
  version : ∀ v ∈ r.version, Version.IsShort v
  editions : ∀ es ∈ r.editions, ∃ names, names ≠ [] ∧ es = editionSet names
  modules : ∀ row ∈ r.modules.rows, row.1 = Text.fold row.2.name ∧ row.2.IsKept ∧ row.2.Within q

theorem isKept_empty (q : Char → Prop) : ({} : Requirement).IsKept q := ⟨nofun, nofun, nofun⟩

theorem isShort_higher {old : Option (Nat × Nat)} {new : Nat × Nat}
    (hold : ∀ v ∈ old, Version.IsShort v) (hnew : Version.IsShort new) :
    Version.IsShort (higher old new) := by
  rcases old with _ | v
  · exact hnew
  · unfold higher
    simp only
    split
    · exact hnew
    · exact hold v rfl

/-- A version that is taken in can be printed, if the one merged so far can. -/
theorem isShort_require {r r' : Requirement} {f : Fact}
    (hr : ∀ v ∈ r.version, Version.IsShort v) (h : r.require f = .ok r') :
    ∀ v ∈ r'.version, Version.IsShort v := by
  cases f with
  | legacyAssembly => cases h
  | version t =>
    simp only [Requirement.require] at h
    split at h
    · cases h
    · cases h
    · next v hread =>
      cases h
      rintro _ ⟨⟩
      exact isShort_higher hr (Version.isShort_majorMinor hread)
  | editions names =>
    simp only [Requirement.require] at h
    split at h
    · cases h
      exact hr
    · split at h
      · cases h
        exact hr
      · cases h
  | module spec =>
    simp only [Requirement.require] at h
    split at h
    · cases h
    · cases h
      exact hr
  | elevation =>
    cases h
    exact hr

/-- What is merged so far under a name, or the bare name. -/
theorem IsKept.getD {q : Char → Prop} {r : Requirement} {name : Text} {kept : ModuleSpec}
    (h : r.IsKept q) (hname : ∀ c ∈ name, q c)
    (hkept : (r.modules.get? (Text.fold name)).getD { name := name } = kept) :
    Text.fold name = Text.fold kept.name ∧ kept.IsKept ∧ kept.Within q := by
  rcases hget : r.modules.get? (Text.fold name) with _ | row
  · rw [hget] at hkept
    subst hkept
    exact ⟨rfl, ModuleSpec.isKept_plain name, Script.plain_within hname⟩
  · rw [hget] at hkept
    subst hkept
    exact h.modules _ (Table.mem_rows_of_get? hget)

/-- A fact that is taken in keeps each part. -/
theorem IsKept.require {q : Char → Prop} {r r' : Requirement} {f : Fact} (h : r.IsKept q)
    (hf : f.IsGiven q) (hr : r.require f = .ok r') : r'.IsKept q := by
  have hversion := isShort_require h.version hr
  cases f with
  | legacyAssembly => cases hr
  | version t =>
    simp only [Requirement.require] at hr
    split at hr
    · cases hr
    · cases hr
    · cases hr
      exact ⟨hversion, h.editions, h.modules⟩
  | editions names =>
    simp only [Requirement.require] at hr
    split at hr
    · cases hr
      refine ⟨hversion, ?_, h.modules⟩
      rintro _ ⟨⟩
      exact ⟨names, hf.named names rfl, rfl⟩
    · split at hr
      · cases hr
        exact h
      · cases hr
  | module spec =>
    simp only [Requirement.require] at hr
    split at hr
    · cases hr
    · next c ht =>
      cases hr
      have hwithin := hf.within spec rfl
      obtain ⟨hname, hkept, hold⟩ := h.getD (hwithin spec.name List.mem_cons_self) rfl
      refine ⟨h.version, h.editions, ?_⟩
      intro row hrow
      rcases Table.mem_rows_insert hrow with hrow | rfl
      · exact h.modules row hrow
      · refine ⟨?_, hkept.tighten ht, ModuleSpec.within_tighten hold hwithin ht⟩
        rw [ModuleSpec.name_tighten ht]
        exact hname
  | elevation =>
    cases hr
    exact ⟨h.version, h.editions, h.modules⟩

/-- What comments are merged into can be asked for as it is. -/
theorem isKept_of_addAll {q : Char → Prop} {reqs : List Requires} {r : Requirement}
    (hreqs : ∀ req ∈ reqs, ∀ m ∈ req.modules, m.Within q)
    (h : ({} : Requirement).addAll reqs = (r, none)) : r.IsKept q := by
  rw [addAll_eq_requireAll] at h
  have hall : (∀ f ∈ [] ++ reqs.flatMap Requires.facts, f.IsGiven q) → r.IsKept q := by
    refine requireAll_induction (P := fun r fs => (∀ f ∈ fs, f.IsGiven q) → r.IsKept q) ?_
      (fun _ => isKept_empty q) h
    intro r r' fs f hstep hr hgiven
    rw [List.forall_mem_append, List.forall_mem_singleton] at hgiven
    exact (hstep hgiven.1).require hgiven.2 hr
  apply hall
  intro f hf
  obtain ⟨req, hreq, hf⟩ := List.mem_flatMap.mp hf
  exact Requires.isGiven_of_mem_facts (hreqs req hreq) f hf

/-! ### Merging again -/

/-- What is merged, as one comment for each line. -/
def comments (r : Requirement) : List Requires :=
  (r.version.map fun v => { version := some (Version.print v) }).toList ++
  (r.editions.map fun es => { editions := es }).toList ++
  r.modules.values.map (fun m => { modules := [m] }) ++
  (if r.elevation then [{ runAsAdmin := true }] else [])

/-- What is merged, as one fact for each line. -/
def printed (r : Requirement) : List Fact :=
  (r.version.map fun v => Fact.version (Version.print v)).toList ++
  (r.editions.map Fact.editions).toList ++
  r.modules.rows.map (fun row => Fact.module row.2) ++
  (if r.elevation then [Fact.elevation] else [])

/-- Each comment states one fact. -/
theorem IsKept.facts_comments {q : Char → Prop} {r : Requirement} (h : r.IsKept q) :
    r.comments.flatMap Requires.facts = r.printed := by
  have hversion : ((r.version.map fun v =>
      ({ version := some (Version.print v) } : Requires)).toList).flatMap Requires.facts =
        (r.version.map fun v => Fact.version (Version.print v)).toList := by
    cases r.version <;> rfl
  have heditions : ((r.editions.map fun es => ({ editions := es } : Requires)).toList).flatMap
      Requires.facts = (r.editions.map Fact.editions).toList := by
    rcases hes : r.editions with _ | es
    · rfl
    · obtain ⟨names, hne, rfl⟩ := h.editions es hes
      obtain ⟨e, es, hcons⟩ := List.exists_cons_of_ne_nil (editionSet_ne_nil hne)
      simp [Requires.facts, hcons]
  have hmodules : (r.modules.values.map fun m => ({ modules := [m] } : Requires)).flatMap
      Requires.facts = r.modules.rows.map fun row => Fact.module row.2 := by
    rw [Table.values, List.map_map, List.flatMap_map]
    exact List.map_eq_flatMap.symm
  have helevation : (if r.elevation then [({ runAsAdmin := true } : Requires)] else []).flatMap
      Requires.facts = if r.elevation then [Fact.elevation] else [] := by
    cases r.elevation <;> rfl
  rw [comments, List.flatMap_append, List.flatMap_append, List.flatMap_append, hversion,
    heditions, hmodules, helevation, printed]

theorem requireAll_version {v : Option (Nat × Nat)} (hv : ∀ p ∈ v, Version.IsShort p) :
    ({} : Requirement).requireAll (v.map fun p => Fact.version (Version.print p)).toList =
      ({ version := v }, none) := by
  rcases v with _ | p
  · rfl
  · simp only [Option.map_some, Option.toList_some, requireAll, Requirement.require,
      Version.read?_print (hv p rfl)]
    rfl

theorem requireAll_editions {v : Option (Nat × Nat)} {es : Option (List Text)}
    (hes : ∀ e ∈ es, ∃ names, names ≠ [] ∧ e = editionSet names) :
    ({ version := v } : Requirement).requireAll (es.map Fact.editions).toList =
      ({ version := v, editions := es }, none) := by
  rcases es with _ | e
  · rfl
  · obtain ⟨names, -, rfl⟩ := hes e rfl
    simp only [Option.map_some, Option.toList_some, requireAll, Requirement.require,
      editionSet_editionSet]

theorem requireAll_modules {q : Char → Prop} {rows : List (Text × ModuleSpec)} {r : Requirement}
    (hnodup : ((r.modules.rows ++ rows).map Prod.fst).Nodup)
    (hrows : ∀ row ∈ rows, row.1 = Text.fold row.2.name ∧ row.2.IsKept ∧ row.2.Within q) :
    r.requireAll (rows.map fun row => .module row.2) =
      ({ r with modules := rows.foldl (fun t row => t.insert row.1 row.2) r.modules }, none) := by
  induction rows generalizing r with
  | nil => rfl
  | cons row rows ih =>
    rw [List.forall_mem_cons] at hrows
    obtain ⟨⟨hkey, hkept, -⟩, hrows⟩ := hrows
    have hnew := Table.not_mem_keys_of_nodup hnodup
    have hstep : r.require (.module row.2) =
        .ok { r with modules := r.modules.insert row.1 row.2 } := by
      simp only [Requirement.require, ← hkey, Table.get?_of_not_mem hnew, Option.getD_none,
        hkept.tighten_plain]
    rw [List.map_cons, requireAll, hstep]
    refine ih ?_ hrows
    rw [Table.rows_insert hnew]
    simpa using hnodup

/-- **Merging what is merged gives it again.** -/
theorem IsKept.addAll_comments {q : Char → Prop} {r : Requirement} (h : r.IsKept q) :
    ({} : Requirement).addAll r.comments = (r, none) := by
  have hmodules : ({ version := r.version, editions := r.editions } : Requirement).requireAll
      (r.modules.rows.map fun row => Fact.module row.2) =
        ({ version := r.version, editions := r.editions, modules := r.modules }, none) := by
    rw [requireAll_modules (by exact r.modules.nodup) h.modules]
    simp only
    rw [Table.foldl_rows Table.rows_insert]
  rw [addAll_eq_requireAll, h.facts_comments, printed, requireAll_append, requireAll_append,
    requireAll_append, requireAll_version h.version]
  simp only [requireAll_editions h.editions, hmodules]
  rcases r with ⟨version, editions, modules, _ | _⟩ <;> rfl

end Requirement
end ScriptModule
