/-
  ScriptModule/Proofs/Repetition.lean
  ===================================
  **Files taken in again.**  What a contribution has brought in stays, however much is
  merged on top of it.  So a file that was taken in once can be taken in at any later
  point; it then changes nothing that is kept, down to the spelling, and at most adds
  warnings.
-/
import ScriptModule.Proofs.Intake

namespace ScriptModule

/-! ### What is already there -/

/-- Whether the substance has all that a contribution brings. -/
structure Substance.Holds (s : Substance) (c : Contribution) : Prop where
  needs : c.needs? s.needs = some s.needs
  namespaces : ∀ k, c.namespace? = some k → s.namespaces k = true
  assemblies : ∀ k, c.assembly? = some k → s.assemblies k = true
  definitions : c.definitions? s.definitions = some s.definitions

theorem Needs.require_again {n m : Needs} {f : Fact} (h : n.require f = some m) :
    m.require f = some m := by
  obtain ⟨hversion, heditions, hmodules, helevation⟩ := require_eq_some.mp h
  refine require_eq_some.mpr ⟨?_, ?_, ?_, ?_⟩
  · cases f <;> simp only [version?] at hversion ⊢ <;> grind [Requirement.higher_self]
  · cases f <;> simp only [editions?] at heditions ⊢
    all_goals grind
  · cases f with
    | module spec =>
      rcases hcheck : spec.checkVersions with e | _ <;>
        simp only [modules?, hcheck, reduceCtorEq] at hmodules ⊢
      obtain ⟨d, hd, hm⟩ := Option.map_eq_some_iff.mp hmodules
      simp [ask?, ← hm, Demand.with?_again hd]
    | _ => rfl
  · rw [← helevation]
    cases f <;> rfl

theorem Definition.enter?_again {d : Definition} (hd : d.rivals = d.kind.rivals)
    {ds es : Definitions} (h : d.enter? ds = some es) : d.enter? es = some es := by
  obtain ⟨hfree, hsame, rfl⟩ := enter?_eq_some.mp h
  refine enter?_eq_some.mpr ⟨?_, by simp, by simp⟩
  intro k hk
  have hne : (k, d.name) ≠ d.slot := by
    intro heq
    obtain ⟨rfl, -⟩ := Prod.mk.inj heq
    rw [hd] at hk
    revert hk
    cases d.kind <;> decide
  rw [Function.update_of_ne hne]
  exact hfree k hk

namespace Substance

/-- What was taken in is there. -/
theorem holds_take {s t : Substance} {c : Contribution} (hc : c.IsStandard)
    (h : s.take c = some t) : t.Holds c := by
  obtain ⟨hneeds, hnames, hassemblies, hdefs, -⟩ := take_eq_some.mp h
  refine ⟨?_, ?_, ?_, ?_⟩
  · cases c with
    | fact f place => exact Needs.require_again hneeds
    | refusal f => cases hneeds
    | _ => rfl
  · intro k hk
    simp [← hnames, hk]
  · intro k hk
    simp [← hassemblies, hk]
  · simp only [Contribution.definitions?] at hdefs ⊢
    rcases hd : c.definition? with _ | d
    · rfl
    · rw [hd] at hdefs
      exact Definition.enter?_again (hc d hd) hdefs

/-- What is there stays there. -/
theorem Holds.take {s t : Substance} {b c : Contribution} (hb : b.IsStandard)
    (hc : c.IsStandard) (h : s.Holds c) (ht : s.take b = some t) : t.Holds c := by
  obtain ⟨hneeds, hnames, hassemblies, hdefs, -⟩ := take_eq_some.mp ht
  -- taking in `c` first leaves what is there, so it can be put off behind `b`
  obtain ⟨needs, hn, hn'⟩ := needs?_comm c b _ _ _ h.needs hneeds
  obtain ⟨defs, hd, hd', -⟩ := definitions?_comm hc hb h.definitions hdefs
  obtain rfl : needs = t.needs := Option.some.inj (hn.symm.trans hneeds)
  obtain rfl : defs = t.definitions := Option.some.inj (hd.symm.trans hdefs)
  refine ⟨hn', ?_, ?_, hd'⟩
  · intro k hk
    simp [← hnames, h.namespaces k hk]
  · intro k hk
    simp [← hassemblies, h.assemblies k hk]

theorem Holds.takeAll {c : Contribution} (hc : c.IsStandard) {cs : List Contribution}
    (hcs : AllStandard cs) {s t : Substance} (h : s.Holds c) (ht : s.takeAll cs = some t) :
    t.Holds c := by
  induction cs generalizing s with
  | nil =>
    obtain rfl : s = t := Option.some.inj ht
    exact h
  | cons b cs ih =>
    rw [takeAll_cons] at ht
    obtain ⟨u, hu, hrest⟩ := Option.bind_eq_some_iff.mp ht
    have hb : b.IsStandard := hcs b (List.mem_cons_self ..)
    exact ih (fun e he => hcs e (List.mem_cons_of_mem _ he)) (h.take hb hc hu) hrest

/-- Behind a run, everything that was taken in is there. -/
theorem holds_takeAll {cs : List Contribution} (hcs : AllStandard cs) {s t : Substance}
    (ht : s.takeAll cs = some t) : ∀ c ∈ cs, t.Holds c := by
  induction cs generalizing s with
  | nil => intro c hc; cases hc
  | cons b cs ih =>
    rw [takeAll_cons] at ht
    obtain ⟨u, hu, hrest⟩ := Option.bind_eq_some_iff.mp ht
    have hb : b.IsStandard := hcs b (List.mem_cons_self ..)
    have hcs' : AllStandard cs := fun e he => hcs e (List.mem_cons_of_mem _ he)
    intro c hc
    rcases List.mem_cons.mp hc with rfl | hc
    · exact (holds_take hb hu).takeAll hb hcs' hrest
    · exact ih hcs' hrest c hc

end Substance

/-! ### Nothing changes -/

/-- Whether all that is kept in `d` is the same in `e`, with perhaps more warnings. -/
structure Draft.Keeps (d e : Draft) : Prop where
  requirement : e.requirement = d.requirement
  imports : e.imports = d.imports
  registry : e.registry = d.registry
  classes : e.classes = d.classes
  warnings : ∃ ws, e.warnings = d.warnings ++ ws

theorem setRow_of_lookup {κ α : Type} [DecidableEq κ] {k : κ} {v : α} {rows : List (κ × α)}
    (h : rows.lookup k = some v) : setRow k v rows = rows := by
  induction rows with
  | nil => cases h
  | cons r rows ih =>
    obtain ⟨k', v'⟩ := r
    rw [lookup_row] at h
    by_cases hk : k = k'
    · obtain rfl : v' = v := by simpa [hk] using h
      simp [setRow, hk]
    · rw [if_neg hk] at h
      simp [setRow, Ne.symm hk, ih h]

theorem Table.insert_of_get? {κ α : Type} [DecidableEq κ] {t : Table κ α} {k : κ} {v : α}
    (h : t.get? k = some v) : t.insert k v = t := by
  obtain ⟨rows, hn⟩ := t
  simp only [insert, mk.injEq]
  exact setRow_of_lookup h

/-- A fact that asks for nothing more is taken in without a trace. -/
theorem Requirement.require_of_needs {r : Requirement} {f : Fact}
    (h : r.needs.require f = some r.needs) : r.require f = .ok r := by
  have hsame := needs_require r f
  rw [h] at hsame
  rcases hr : r.require f with e | r'
  · simp [hr, Except.toOption] at hsame
  · have hneeds : r'.needs = r.needs := by simpa [hr, Except.toOption] using hsame
    simp only [needs, Needs.mk.injEq] at hneeds
    obtain ⟨hversion, heditions, hmodules, helevation⟩ := hneeds
    obtain ⟨version, editions, modules, elevation⟩ := r
    cases f with
    | legacyAssembly => cases hr
    | version t =>
      simp only [require] at hr
      split at hr <;> cases hr
      simp_all
    | editions names =>
      simp only [require] at hr
      split at hr
      · cases hr
        simp_all
      · split at hr <;> cases hr
        rfl
    | elevation =>
      cases hr
      simp_all
    | module spec =>
      simp only [require] at hr
      split at hr
      · cases hr
      · next c htight =>
        cases hr
        have hkey := congrFun hmodules (Text.fold spec.name)
        simp only [Table.get?_insert, if_true, Option.map_some] at hkey
        obtain ⟨kept, hkept, hdemand⟩ := Option.map_eq_some_iff.mp hkey.symm
        rw [hkept, Option.getD_some] at htight
        obtain ⟨-, -, rfl⟩ := ModuleSpec.tighten_eq_ok.mp htight
        rw [ModuleSpec.merged_eq_self hdemand.symm, Table.insert_of_get? hkept]

namespace Draft

theorem Keeps.refl (d : Draft) : d.Keeps d := ⟨rfl, rfl, rfl, rfl, [], by simp⟩

theorem Keeps.trans {d e f : Draft} (hde : d.Keeps e) (hef : e.Keeps f) : d.Keeps f := by
  obtain ⟨ws, hws⟩ := hde.warnings
  obtain ⟨vs, hvs⟩ := hef.warnings
  exact ⟨hef.requirement.trans hde.requirement, hef.imports.trans hde.imports,
    hef.registry.trans hde.registry, hef.classes.trans hde.classes, ws ++ vs, by
      rw [hvs, hws, List.append_assoc]⟩

theorem keeps_warn (d : Draft) (r : Report) : d.Keeps (d.warn r) :=
  ⟨rfl, rfl, rfl, rfl, [r], rfl⟩

theorem Keeps.holds {d e : Draft} {c : Contribution} (h : d.Keeps e)
    (hc : d.substance.Holds c) : e.substance.Holds c := by
  obtain ⟨hrequirement, himports, hregistry, -, -⟩ := h
  obtain ⟨hneeds, hnames, hassemblies, hdefs⟩ := hc
  simp only [substance, ← hrequirement, ← himports, ← hregistry] at *
  exact ⟨hneeds, hnames, hassemblies, hdefs⟩

/-- The text of a module does not show its warnings. -/
theorem Keeps.render_eq {d e : Draft} (h : d.Keeps e) : e.render = d.render := by
  obtain ⟨requirement, imports, registry, classes, warnings, log⟩ := d
  obtain ⟨requirement', imports', registry', classes', warnings', log'⟩ := e
  obtain ⟨rfl, rfl, rfl, rfl, -⟩ := h
  rfl

theorem add_of_enter? {r : Registry} {kind : SectionKind} {key value : Text}
    {rivals : List SectionKind} (filename : Option Text)
    (h : (⟨kind, Text.fold key, value, rivals⟩ : Definition).enter? r.substance =
      some r.substance) :
    ∃ p : Problem, p.severity.isFatal = false ∧
      r.add kind key value filename rivals = (r, some p) := by
  obtain ⟨hfree, -, hupdate⟩ := Definition.enter?_eq_some.mp h
  have hrival : r.rival? key rivals = none := Registry.rival?_eq_none.mpr hfree
  have hslot : r.substance (kind, Text.fold key) = some value := by
    rw [← hupdate]
    exact Function.update_self ..
  obtain ⟨e, hentry, hvalue⟩ := Option.map_eq_some_iff.mp hslot
  have hfind : (r.sectionOf kind).find? key = some e := hentry
  refine ⟨.duplicateDefinition kind key e.filename, rfl, ?_⟩
  simp [Registry.add, hrival, hfind, hvalue]

theorem insertNew_of_contains {t : Table Text Text} {key value : Text}
    (h : t.contains key = true) : t.insertNew key value = t := by
  rw [Table.insertNew, if_pos h]

/-- What is there is taken in without a trace but for warnings. -/
theorem take_of_holds {d : Draft} {c : Contribution} (h : d.substance.Holds c) :
    ∃ e, d.take c = .ok e ∧ d.Keeps e := by
  obtain ⟨hneeds, hnames, hassemblies, hdefs⟩ := h
  cases c with
  | event e => exact ⟨_, rfl, rfl, rfl, rfl, rfl, [], by simp [say]⟩
  | warning r => exact ⟨_, rfl, keeps_warn d r⟩
  | fact f place =>
    refine ⟨d, ?_, Keeps.refl d⟩
    simp only [take, Requirement.require_of_needs hneeds]
  | importing i place =>
    obtain ⟨kind, name⟩ := i
    cases kind with
    | names =>
      refine ⟨d, ?_, Keeps.refl d⟩
      simp only [take, Imports.add, insertNew_of_contains (hnames _ rfl), judge]
    | assembly =>
      refine ⟨d, ?_, Keeps.refl d⟩
      simp only [take, Imports.add, insertNew_of_contains (hassemblies _ rfl), judge]
    | module => exact ⟨_, rfl, keeps_warn d _⟩
    | unknown => exact ⟨_, rfl, keeps_warn d _⟩
  | definition kind key value rivals place =>
    obtain ⟨p, hp, hadd⟩ := add_of_enter? place.filename hdefs
    refine ⟨d.warn (place.report p), ?_, keeps_warn d _⟩
    simp [take, hadd, judge, hp]
  | classType c text place =>
    obtain ⟨p, hp, hadd⟩ := add_of_enter? place.filename hdefs
    refine ⟨d.warn (place.report p), ?_, keeps_warn d _⟩
    simp [take, hadd, judge, hp]
  | refusal f => cases hneeds

theorem takeAll_of_holds {d : Draft} {cs : List Contribution}
    (h : ∀ c ∈ cs, d.substance.Holds c) : ∃ e, d.takeAll cs = (e, none) ∧ d.Keeps e := by
  induction cs generalizing d with
  | nil => exact ⟨d, rfl, Keeps.refl d⟩
  | cons c cs ih =>
    obtain ⟨d', htake, hkeeps⟩ := take_of_holds (h c (List.mem_cons_self ..))
    obtain ⟨e, hrest, hkeeps'⟩ :=
      ih fun b hb => hkeeps.holds (h b (List.mem_cons_of_mem _ hb))
    exact ⟨e, by simp [takeAll, htake, hrest], hkeeps.trans hkeeps'⟩

/-- A file that was taken in at any point of a run can be taken in again behind it; what
    is kept stays as it is, and so does the text of the module. -/
theorem ingest_again {known : KnownAliases} {start d : Draft} {before after : List Intake}
    {i : Intake} (h : start.ingestAll known (before ++ i :: after) = (d, none)) :
    ∃ e, d.ingest known i = (e, none) ∧ d.Keeps e ∧ e.render = d.render := by
  rw [ingestAll_eq_takeAll] at h
  have hstandard : AllStandard ((before ++ i :: after).flatMap (Intake.contributions known)) :=
    .flatMap fun j _ => j.allStandard_contributions known
  have htaken := substance_takeAll start
    ((before ++ i :: after).flatMap (Intake.contributions known))
  rw [h] at htaken
  have hthere : ∀ c ∈ i.contributions known, d.substance.Holds c := fun c hc =>
    Substance.holds_takeAll hstandard htaken c (List.mem_flatMap.mpr ⟨i, by simp, hc⟩)
  obtain ⟨e, htake, hkeeps⟩ := takeAll_of_holds hthere
  exact ⟨e, by rw [ingest_eq_takeAll, htake], hkeeps, hkeeps.render_eq⟩

/-- A lower bound taken in again after it was raised by another file. -/
theorem ingest_again_lower_bound :
    let low : Intake := .script
      "#Requires -Modules @{ ModuleName = A; ModuleVersion = 1.0 }".toList
      "low.ps1".toList none
    let high : Intake := .script
      "#Requires -Modules @{ ModuleName = a; ModuleVersion = 1.10 }
$x = 1".toList
      "high.ps1".toList none
    let d := (({} : Draft).ingestAll Table.empty ([] ++ low :: [high])).1
    ∃ e, d.ingest Table.empty low = (e, none) ∧ d.Keeps e ∧ e.render = d.render := by
  intro low high d
  exact ingest_again (Prod.ext rfl (by decide +kernel))

end Draft
end ScriptModule
