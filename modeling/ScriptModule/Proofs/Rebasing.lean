/-
  ScriptModule/Proofs/Rebasing.lean
  =================================
  **Modules in other directories.**  Where a module lies decides only how its resources are
  named.  Two modules of one project are made side by side, from contributions that are
  alike but for the names of resources (`Contribution.Alike`); as no two resources fall
  together in one directory and stay apart in another, both are refused at the same
  contribution for the same reason, or their drafts stay alike (`Draft.Alike.takeAll`).
-/
import Mathlib.Data.List.Forall2
import ScriptModule.Project
import ScriptModule.Proofs.ResourcePath
import ScriptModule.Proofs.Sections

namespace ScriptModule

/-! ### Tables -/

namespace Table

variable {κ κ' α α' : Type} [DecidableEq κ] [DecidableEq κ']

omit [DecidableEq κ] [DecidableEq κ'] in
/-- Two tables have as many rows, with related keys and values. -/
def Alike (K : κ → κ' → Prop) (V : α → α' → Prop) (t : Table κ α) (t' : Table κ' α') : Prop :=
  List.Forall₂ (fun r r' => K r.1 r'.1 ∧ V r.2 r'.2) t.rows t'.rows

variable {K : κ → κ' → Prop} {V : α → α' → Prop} {t : Table κ α} {t' : Table κ' α'}
  {k : κ} {k' : κ'}

omit [DecidableEq κ] [DecidableEq κ'] in
theorem alike_empty : (empty : Table κ α).Alike K V (empty : Table κ' α') := .nil

omit [DecidableEq κ] in
theorem biUnique_eq : Relator.BiUnique (@Eq κ) :=
  ⟨fun _ _ _ h h' => h.trans h'.symm, fun _ _ _ h h' => h.symm.trans h'⟩

/-- Related keys are found together. -/
theorem Alike.get? (hK : Relator.BiUnique K) (h : t.Alike K V t') (hk : K k k') :
    Option.Rel V (t.get? k) (t'.get? k') := by
  obtain ⟨rows, hnodup⟩ := t
  obtain ⟨rows', hnodup'⟩ := t'
  change List.Forall₂ _ rows rows' at h
  change Option.Rel V (rows.lookup k) (rows'.lookup k')
  clear hnodup hnodup'
  induction h with
  | nil => exact .none
  | @cons r r' rows rows' hr hrows ih =>
    obtain ⟨j, v⟩ := r
    obtain ⟨j', v'⟩ := r'
    rw [lookup_row, lookup_row]
    by_cases hj : k = j
    · rw [if_pos hj, if_pos ((Relator.rel_eq hK hk hr.1).mp hj)]
      exact .some hr.2
    · rw [if_neg hj, if_neg fun hj' => hj ((Relator.rel_eq hK hk hr.1).mpr hj')]
      exact ih

/-- Writing to related keys keeps tables alike. -/
theorem Alike.insert (hK : Relator.BiUnique K) (h : t.Alike K V t') (hk : K k k') {v : α}
    {v' : α'} (hv : V v v') : (t.insert k v).Alike K V (t'.insert k' v') := by
  obtain ⟨rows, hnodup⟩ := t
  obtain ⟨rows', hnodup'⟩ := t'
  change List.Forall₂ _ rows rows' at h
  change List.Forall₂ _ (setRow k v rows) (setRow k' v' rows')
  clear hnodup hnodup'
  induction h with
  | nil => exact .cons ⟨hk, hv⟩ .nil
  | @cons r r' rows rows' hr hrows ih =>
    obtain ⟨j, w⟩ := r
    obtain ⟨j', w'⟩ := r'
    rw [setRow, setRow]
    by_cases hj : j = k
    · rw [if_pos hj, if_pos ((Relator.rel_eq hK hr.1 hk).mp hj)]
      exact .cons ⟨hk, hv⟩ hrows
    · rw [if_neg hj, if_neg fun hj' => hj ((Relator.rel_eq hK hr.1 hk).mpr hj')]
      exact .cons hr ih

end Table

/-! ### What is alike -/

/-- How the values of two entries of a kind are related: the resources of format views by
    `R`, and other values are the same. -/
def SectionKind.Relates (R : Text → Text → Prop) (kind : SectionKind) : Text → Text → Prop :=
  if kind = .formatView then R else Eq

/-- Entries of the same name and from the same file, with related values. -/
structure Entry.Alike (R : Text → Text → Prop) (e e' : Entry) : Prop where
  key : e.key = e'.key
  filename : e.filename = e'.filename
  value : R e.value e'.value

/-- Registries whose sections differ in the resources of format views only. -/
def Registry.Alike (R : Text → Text → Prop) (r r' : Registry) : Prop :=
  ∀ kind, (r.sectionOf kind).Alike Eq (Entry.Alike (kind.Relates R)) (r'.sectionOf kind)

/-- Drafts that differ in the resources of format views only. -/
structure Draft.Alike (R : Text → Text → Prop) (d d' : Draft) : Prop where
  requirement : d.requirement = d'.requirement
  imports : d.imports = d'.imports
  registry : d.registry.Alike R d'.registry
  classes : d.classes = d'.classes
  warnings : d.warnings = d'.warnings
  log : d.log = d'.log

/-- The same contribution, or format views of one name with related resources. -/
inductive Contribution.Alike (R : Text → Text → Prop) : Contribution → Contribution → Prop where
  | same {c : Contribution} (h : c.entryOf .formatView = none) : Alike R c c
  | view {key value value' : Text} {rivals : List SectionKind} {place : Place}
      (h : R value value') :
      Alike R (.definition .formatView key value rivals place)
        (.definition .formatView key value' rivals place)

/-- The same failure, or drafts that are alike. -/
inductive Draft.EndAlike (R : Text → Text → Prop) :
    Except Failure Draft → Except Failure Draft → Prop where
  | refused (f : Failure) : EndAlike R (.error f) (.error f)
  | taken {d d' : Draft} (h : d.Alike R d') : EndAlike R (.ok d) (.ok d')

variable {R : Text → Text → Prop}

theorem SectionKind.biUnique_relates (hR : Relator.BiUnique R) (kind : SectionKind) :
    Relator.BiUnique (kind.Relates R) := by
  unfold Relates
  split
  · exact hR
  · exact Table.biUnique_eq

/-! ### Registering -/

namespace Registry

variable {r r' : Registry}

theorem Alike.find? (h : r.Alike R r') (kind : SectionKind) (key : Text) :
    Option.Rel (Entry.Alike (kind.Relates R)) ((r.sectionOf kind).find? key)
      ((r'.sectionOf kind).find? key) :=
  (h kind).get? Table.biUnique_eq rfl

/-- The same rival stands in the way of a name. -/
theorem Alike.rival? (h : r.Alike R r') (key : Text) (rivals : List SectionKind) :
    Option.Rel (fun x x' => x.1 = x'.1 ∧ x.2.filename = x'.2.filename) (r.rival? key rivals)
      (r'.rival? key rivals) := by
  unfold Registry.rival?
  induction rivals with
  | nil => exact .none
  | cons k ks ih =>
    rw [List.findSome?_cons, List.findSome?_cons]
    have hfound := h.find? k key
    rcases hfind : (r.sectionOf k).find? key with _ | e <;>
      rcases hfind' : (r'.sectionOf k).find? key with _ | e' <;>
      rw [hfind, hfind'] at hfound
    · exact ih
    · cases hfound
    · cases hfound
    · cases hfound with
      | some hentry => exact .some ⟨rfl, hentry.filename⟩

/-- A name is new in both of two registries or in none, and stands for something else in
    both or in none; so both registrations end alike. -/
theorem Alike.add (hR : Relator.BiUnique R) (h : r.Alike R r') (kind : SectionKind)
    (key : Text) {value value' : Text} (hvalue : kind.Relates R value value')
    (filename : Option Text) (rivals : List SectionKind) :
    (r.add kind key value filename rivals).2 = (r'.add kind key value' filename rivals).2 ∧
      (r.add kind key value filename rivals).1.Alike R
        (r'.add kind key value' filename rivals).1 := by
  unfold Registry.add
  have hrivals := h.rival? key rivals
  rcases hrival : r.rival? key rivals with _ | ⟨other, e⟩ <;>
    rcases hrival' : r'.rival? key rivals with _ | ⟨other', e'⟩ <;>
    rw [hrival, hrival'] at hrivals
  · have hfound := h.find? kind key
    rcases hfind : (r.sectionOf kind).find? key with _ | e <;>
      rcases hfind' : (r'.sectionOf kind).find? key with _ | e' <;>
      rw [hfind, hfind'] at hfound
    · refine ⟨rfl, fun k => ?_⟩
      rw [sectionOf_insert, sectionOf_insert]
      split
      · subst k
        exact (h kind).insert Table.biUnique_eq rfl ⟨rfl, rfl, hvalue⟩
      · exact h k
    · cases hfound
    · cases hfound
    · cases hfound with
      | some hentry =>
        have hsame : e.value = value ↔ e'.value = value' :=
          Relator.rel_eq (kind.biUnique_relates hR) hentry.value hvalue
        simp only [hentry.filename]
        by_cases hv : e.value = value
        · rw [if_pos hv, if_pos (hsame.mp hv)]
          exact ⟨rfl, h⟩
        · rw [if_neg hv, if_neg fun hv' => hv (hsame.mpr hv')]
          exact ⟨rfl, h⟩
  · cases hrivals
  · cases hrivals
  · cases hrivals with
    | some hboth =>
      obtain ⟨rfl, hfilename⟩ := hboth
      change e.filename = e'.filename at hfilename
      simp only [hfilename, true_and]
      exact h

end Registry

/-! ### Taking in -/

namespace Draft

variable {d d' : Draft}

theorem alike_empty (R : Text → Text → Prop) : ({} : Draft).Alike R {} :=
  ⟨rfl, rfl, fun _ => Table.alike_empty, rfl, rfl, rfl⟩

theorem Alike.say (h : d.Alike R d') (e : LogEvent) : (d.say e).Alike R (d'.say e) :=
  { h with log := congrArg (· ++ [e]) h.log }

theorem Alike.warn (h : d.Alike R d') (r : Report) : (d.warn r).Alike R (d'.warn r) := by
  have hkept : Draft.Alike R { d with warnings := d.warnings ++ [r] }
      { d' with warnings := d'.warnings ++ [r] } :=
    { h with warnings := congrArg (· ++ [r]) h.warnings }
  exact hkept.say _

theorem Alike.withRegistry (h : d.Alike R d') {r r' : Registry} (hr : r.Alike R r') :
    Draft.Alike R { d with registry := r } { d' with registry := r' } :=
  { h with registry := hr }

theorem Alike.withImports (h : d.Alike R d') (imports : Imports) :
    Draft.Alike R { d with imports := imports } { d' with imports := imports } :=
  { h with imports := rfl }

theorem Alike.withClasses (h : d.Alike R d') (classes : Table Text DeclaredClass) :
    Draft.Alike R { d with classes := classes } { d' with classes := classes } :=
  { h with classes := rfl }

theorem Alike.judge (h : d.Alike R d') (place : Place) (p : Option Problem) :
    EndAlike R (d.judge place p) (d'.judge place p) := by
  unfold Draft.judge
  split
  · exact .taken h
  · split
    · exact .refused _
    · exact .taken (h.warn _)

/-- One step: contributions that are alike are taken in or refused alike. -/
theorem Alike.take (hR : Relator.BiUnique R) (h : d.Alike R d') {c c' : Contribution}
    (hc : c.Alike R c') : EndAlike R (d.take c) (d'.take c') := by
  cases hc with
  | @view key value value' rivals place hvalue =>
    obtain ⟨hproblem, hregistry⟩ :=
      h.registry.add hR .formatView key hvalue place.filename rivals
    simp only [Draft.take, ← hproblem]
    exact (h.withRegistry hregistry).judge place _
  | same hc =>
    cases c with
    | event e => exact .taken (h.say e)
    | warning r => exact .taken (h.warn r)
    | fact f place =>
      simp only [Draft.take, ← h.requirement]
      split
      · exact .taken { h with requirement := rfl }
      · exact .refused _
      · exact .refused _
    | importing i place =>
      simp only [Draft.take, ← h.imports]
      exact (h.withImports _).judge place _
    | definition kind key value rivals place =>
      have hkind : kind ≠ .formatView := by
        rintro rfl
        simp [Contribution.entryOf, Contribution.entry?] at hc
      have hvalue : kind.Relates R value value := by
        rw [SectionKind.Relates, if_neg hkind]
      obtain ⟨hproblem, hregistry⟩ := h.registry.add hR kind key hvalue place.filename rivals
      simp only [Draft.take, ← hproblem]
      exact (h.withRegistry hregistry).judge place _
    | classType t text place =>
      have hvalue : SectionKind.classType.Relates R text text := rfl
      obtain ⟨hproblem, hregistry⟩ := h.registry.add hR .classType t.name hvalue place.filename []
      simp only [Draft.take, ← hproblem, ← h.classes]
      exact ((h.withRegistry hregistry).withClasses _).judge place _
    | refusal f => exact .refused f

/-- All steps: two runs over contributions that are alike end alike, at the same
    contribution if they are cut short. -/
theorem Alike.takeAll (hR : Relator.BiUnique R) (h : d.Alike R d')
    {cs cs' : List Contribution} (hcs : List.Forall₂ (Contribution.Alike R) cs cs') :
    (d.takeAll cs).2 = (d'.takeAll cs').2 ∧ (d.takeAll cs).1.Alike R (d'.takeAll cs').1 := by
  induction hcs generalizing d d' with
  | nil => exact ⟨rfl, h⟩
  | cons hc hmore ih =>
    have hstep := h.take hR hc
    rw [Draft.takeAll, Draft.takeAll]
    generalize d.take _ = x at hstep ⊢
    generalize d'.take _ = x' at hstep ⊢
    cases hstep with
    | refused f => exact ⟨rfl, h⟩
    | taken h => exact ih h

/-! ### Rendering -/

/-- Sections of other kinds are the same. -/
theorem Alike.sectionOf (h : d.Alike R d') (kind : SectionKind) (hkind : kind ≠ .formatView) :
    d'.registry.sectionOf kind = d.registry.sectionOf kind := by
  have hrows := h.registry kind
  rw [SectionKind.Relates, if_neg hkind] at hrows
  apply Table.ext_rows
  symm
  rw [← List.forall₂_eq_eq_eq]
  refine List.Forall₂.imp ?_ hrows
  rintro ⟨k, key, value, filename⟩ ⟨k', key', value', filename'⟩ ⟨rfl, hentry⟩
  cases hentry.key
  cases hentry.filename
  cases hentry.value
  rfl

/-- The views are gathered by resource in the same way. -/
theorem Alike.viewsByResource (hR : Relator.BiUnique R) (h : d.Alike R d') :
    Table.Alike R Eq d.viewsByResource d'.viewsByResource := by
  have hentries : List.Forall₂ (Entry.Alike R) (d.registry.sectionOf .formatView).entries
      (d'.registry.sectionOf .formatView).entries := by
    refine List.forall₂_map_left_iff.mpr (List.forall₂_map_right_iff.mpr ?_)
    exact List.Forall₂.imp (fun _ _ hrow => hrow.2) (h.registry .formatView)
  refine List.rel_foldl (P := Table.Alike R Eq) ?_ Table.alike_empty hentries
  intro t t' ht e e' he
  have hviews : t.get? e.value = t'.get? e'.value := by
    have hfound := ht.get? hR he.value
    generalize t.get? e.value = x at hfound ⊢
    generalize t'.get? e'.value = x' at hfound ⊢
    cases hfound with
    | none => rfl
    | some hv => exact congrArg some hv
  exact ht.insert hR he.value (by rw [hviews, he.key])

/-- The region of the resources, with its neighbours that do not depend on them. -/
theorem Alike.regions (h : d.Alike R d') : ∃ front back,
    d.regions = front ++ regionOf "Format" "\n\n"
      (d.viewsByResource.rows.map fun r => Snippet.formatRegistration r.1 r.2) ++ back ∧
    d'.regions = front ++ regionOf "Format" "\n\n"
      (d'.viewsByResource.rows.map fun r => Snippet.formatRegistration r.1 r.2) ++ back := by
  have hvariables := h.sectionOf .variable (by decide)
  have hfunctions := h.sectionOf .function (by decide)
  have hentries := h.sectionOf .entryPoint (by decide)
  have haliases := h.sectionOf .aliasName (by decide)
  have henums := h.sectionOf .enumeration (by decide)
  have hclasses := h.sectionOf .classType (by decide)
  refine ⟨_, _, List.append_assoc _ _ _, ?_⟩
  rw [← List.append_assoc]
  simp only [Draft.regions, typeNames, exportedAliases, aliases, targetRank, exportedFunctions,
    exportedVariables, classTexts, orderedClasses, namedClasses?, hvariables, hfunctions, hentries, haliases,
    henums, hclasses, h.requirement, h.imports, h.classes]
  rfl

end Draft

/-! ### What a project contributes -/

/-- The texts that name one place from two directories. -/
def Path.Rebases (base base' : Path) (t t' : Text) : Prop :=
  ∃ q : Path, q.IsResolved ∧ t = (relativeTo base q).toText ∧ t' = (relativeTo base' q).toText

/-- Places are neither merged nor separated by the directory that they are named from. -/
theorem Path.biUnique_rebases (base base' : Path) : Relator.BiUnique (Rebases base base') := by
  constructor
  · rintro t u t' ⟨q, hq, rfl, rfl⟩ ⟨r, hr, rfl, hsame⟩
    rw [relativeText_injective hq hr hsame]
  · rintro t t' u' ⟨q, hq, rfl, rfl⟩ ⟨r, hr, hsame, rfl⟩
    rw [relativeText_injective hq hr hsame]

/-- Scripts declare no format views. -/
theorem Contribution.holdsFor_noView :
    HoldsFor Script.kinds fun c => c.entryOf .formatView = none where
  plain := by
    intro c hc
    rw [entryOf, entry?_of_none hc]
  classType _ _ _ := rfl
  definition kind hkind key value place := by
    refine if_neg ?_
    rintro rfl
    exact absurd hkind (by decide)

/-- What asks for no format view is alike from every directory. -/
theorem forall₂_alike {cs : List Contribution} (h : ∀ c ∈ cs, c.entryOf .formatView = none) :
    List.Forall₂ (Contribution.Alike R) cs cs :=
  List.forall₂_same.mpr fun c hc => .same (h c hc)

namespace Project

theorem noView_scriptContributions (known : KnownAliases) (d : Disk) (p : Path)
    (position : Int × Int) :
    ∀ c ∈ scriptContributions known d p position, c.entryOf .formatView = none := by
  unfold scriptContributions
  split
  · exact List.forall_mem_singleton.mpr rfl
  · exact forall_sourceContributions Contribution.holdsFor_noView known _ _ _

/-- A format resource contributes its views, and names its place from either directory. -/
theorem formatContributions_alike (d : Disk) (base base' : Path) {f : Path}
    (hf : (d.resolve f).IsResolved) :
    List.Forall₂ (Contribution.Alike (Path.Rebases base base')) (formatContributions d base f)
      (formatContributions d base' f) := by
  unfold formatContributions
  split
  · exact .cons (.same rfl) .nil
  · split
    · exact .cons (.same rfl) .nil
    · refine List.rel_append ?_ (.cons (.same rfl) .nil)
      refine List.forall₂_map_left_iff.mpr (List.forall₂_map_right_iff.mpr ?_)
      exact List.forall₂_same.mpr fun v _ => .view ⟨_, hf, rfl, rfl⟩

theorem contributions_alike {p : Project} {d : Disk} (hd : d.IsNamed) (hp : p.root.IsRead)
    (base base' : Path) :
    List.Forall₂ (Contribution.Alike (Path.Rebases base base')) (p.contributions d base)
      (p.contributions d base') := by
  unfold contributions
  refine .cons (.same rfl) ?_
  split
  · exact .cons (.same rfl) .nil
  · exact .cons (.same rfl) .nil
  · next t hscan =>
    have hplaces := SourceTree.isResolved_of_scan hd hp hscan
    unfold treeContributions
    refine List.rel_append (.cons (.same rfl) ?_) ?_
    · apply forall₂_alike
      intro c hc
      obtain ⟨s, -, hc⟩ := List.mem_flatMap.mp hc
      exact noView_scriptContributions _ _ _ _ c hc
    · generalize t.formats = fs at hplaces
      induction fs with
      | nil => exact .nil
      | cons f fs ih =>
        rw [List.forall_mem_cons] at hplaces
        rw [List.flatMap_cons, List.flatMap_cons]
        exact List.rel_append (formatContributions_alike d base base' hplaces.1) (ih hplaces.2)

/-! ### Checks and builds -/

/-- The region in which a module in the directory `base` registers its resources, each
    with its views. -/
def resourceRegion (base : Path) (resources : List (Path × List Text)) : List Text :=
  Draft.regionOf "Format" "\n\n"
    (resources.map fun r => Snippet.formatRegistration (Path.relativeTo base r.1).toText r.2)

/-- A check of a project agrees with what the project comes to for the directory `base`:
    both fail, for the same reason; or both give the same warnings, and texts that are the
    same but for the paths of the resources, which name the same places. -/
def CheckAgrees (p : Project) (d : Disk) (base : Path) : Prop :=
  match p.assemble d base with
  | (_, some f) => (p.check d).text = .error f
  | (draft, none) =>
    (p.check d).draft.warnings = draft.warnings ∧
      ∃ front resources back, (∀ r ∈ resources, r.1.IsResolved) ∧
        (p.check d).text = .ok (Snippet.joinRegions
          (front ++ resourceRegion (d.resolve p.root) resources ++ back)) ∧
        draft.render = Snippet.joinRegions (front ++ resourceRegion base resources ++ back)

/-- Tables whose keys name places from two directories are written from one list of places. -/
theorem exists_places {base base' : Path} {t t' : Table Text (List Text)}
    (h : t.Alike (Path.Rebases base base') Eq t') :
    ∃ resources : List (Path × List Text), (∀ r ∈ resources, r.1.IsResolved) ∧
      t.rows = resources.map (fun r => ((Path.relativeTo base r.1).toText, r.2)) ∧
      t'.rows = resources.map fun r => ((Path.relativeTo base' r.1).toText, r.2) := by
  unfold Table.Alike at h
  generalize t.rows = rows at h
  generalize t'.rows = rows' at h
  induction h with
  | nil => exact ⟨[], nofun, rfl, rfl⟩
  | @cons r r' rows rows' hr hrows ih =>
    obtain ⟨resources, hresolved, rfl, rfl⟩ := ih
    obtain ⟨t, views⟩ := r
    obtain ⟨t', views'⟩ := r'
    obtain ⟨⟨q, hq, rfl, rfl⟩, rfl⟩ := hr
    exact ⟨(q, views) :: resources, List.forall_mem_cons.mpr ⟨hq, hresolved⟩, rfl, rfl⟩

/-- Two runs over the files of a project, for two directories. -/
theorem assemble_alike {p : Project} {d : Disk} (hd : d.IsNamed) (hp : p.root.IsRead)
    (base base' : Path) :
    (p.assemble d base).2 = (p.assemble d base').2 ∧
      (p.assemble d base).1.Alike (Path.Rebases base base') (p.assemble d base').1 :=
  (Draft.alike_empty _).takeAll (Path.biUnique_rebases base base')
    (contributions_alike hd hp base base')

/-- A check tells beforehand how a build ends, as far as the files of the project decide it,
    and which text is built, but for the paths of the resources. -/
theorem check_agrees {p : Project} {d : Disk} (hd : d.IsNamed) (hp : p.root.IsRead)
    (destination : Path) : p.CheckAgrees d (d.resolve destination).parent := by
  obtain ⟨hend, halike⟩ := assemble_alike hd hp (d.resolve p.root) (d.resolve destination).parent
  unfold CheckAgrees check
  rcases hcheck : p.assemble d (d.resolve p.root) with ⟨draft, failure⟩
  rcases hbuild : p.assemble d (d.resolve destination).parent with ⟨draft', failure'⟩
  rw [hcheck, hbuild] at hend halike
  obtain rfl : failure = failure' := hend
  cases failure with
  | some f => rfl
  | none =>
    refine ⟨halike.warnings, ?_⟩
    obtain ⟨front, back, hregions, hregions'⟩ := halike.regions
    obtain ⟨resources, hresolved, hrows, hrows'⟩ :=
      exists_places (halike.viewsByResource (Path.biUnique_rebases _ _))
    rw [hrows, List.map_map] at hregions
    rw [hrows', List.map_map] at hregions'
    exact ⟨front, resources, back, hresolved, congrArg (Except.ok ∘ Snippet.joinRegions) hregions,
      congrArg Snippet.joinRegions hregions'⟩

/-- A disk with one format resource, in a source root of its own. -/
def shelf : Disk where
  root := .directory "src".toList (.file "v.format.ps1xml".toList (Utf8.encode
    "<Configuration><View><Name>V</Name></View></Configuration>") .nil) .nil
  cwd := ⟨1, []⟩
  spare := ".spare".toList

/-- A module beside the source root lies in another directory than a check assumes. -/
theorem check_agrees_beside :
    let p : Project := { root := Path.ofText "src" }
    shelf.IsNamed ∧ p.root.IsRead ∧
      (shelf.resolve (Path.ofText "m.psm1")).parent ≠ shelf.resolve p.root ∧
      p.CheckAgrees shelf (shelf.resolve (Path.ofText "m.psm1")).parent := by
  intro p
  have hnamed : shelf.IsNamed := ⟨by decide, by decide⟩
  have hread : p.root.IsRead := Path.isRead_ofText _
  exact ⟨hnamed, hread, by decide, check_agrees hnamed hread _⟩

end Project
end ScriptModule
