/-
  ScriptModule/Proofs/Intake.lean
  ===============================
  **Runs of intakes.**  A module is made by taking in files, one after another.  The
  order of the files decides how things are spelled and in which order they stand, but
  neither whether the run goes through nor what the module holds.
-/
import ScriptModule.Artifact.Module
import ScriptModule.Proofs.Substance

namespace ScriptModule

/-! ### Intakes -/

/-- A file to be taken in. -/
inductive Intake where
  | script (source filename : Text) (position : Option (Int × Int))
  | format (document filename resource : Text)
deriving DecidableEq, Repr

def Intake.contributions (known : KnownAliases) : Intake → List Contribution
  | .script source filename position => sourceContributions known source filename position
  | .format document filename resource =>
    match Format.viewNames document (some filename) with
    | .error r => [.refusal (.report r)]
    | .ok views => viewContributions filename resource views

namespace Draft

def ingest (known : KnownAliases) (d : Draft) : Intake → Draft × Option Failure
  | .script source filename position => d.addSource known source filename position
  | .format document filename resource =>
    match d.addFormat document filename resource with
    | (d', .error f) => (d', some f)
    | (d', .ok _) => (d', none)

/-- Takes in files up to the first one that fails. -/
def ingestAll (known : KnownAliases) (d : Draft) : List Intake → Draft × Option Failure
  | [] => (d, none)
  | i :: is =>
    match d.ingest known i with
    | (d', none) => d'.ingestAll known is
    | (d', some f) => (d', some f)

theorem ingest_eq_takeAll (known : KnownAliases) (d : Draft) (i : Intake) :
    d.ingest known i = d.takeAll (i.contributions known) := by
  cases i with
  | script source filename position => rfl
  | format document filename resource =>
    simp only [ingest, addFormat, Intake.contributions]
    rcases Format.viewNames document (some filename) with r | views
    · rfl
    · rcases htake : d.takeAll (viewContributions filename resource views) with ⟨d', _ | f⟩ <;>
        simp [htake]

theorem ingestAll_eq_takeAll (known : KnownAliases) (d : Draft) (is : List Intake) :
    d.ingestAll known is = d.takeAll (is.flatMap (Intake.contributions known)) := by
  induction is generalizing d with
  | nil => rfl
  | cons i is ih =>
    rw [ingestAll, ingest_eq_takeAll, List.flatMap_cons, takeAll_append]
    rcases d.takeAll (i.contributions known) with ⟨d', _ | f⟩
    · exact ih d'
    · rfl

end Draft

/-! ### Contributions of files -/

/-- The kinds of definitions that statements make, apart from classes. -/
def Statement.kinds : List SectionKind := [.enumeration, .variable, .function]

/-- The kinds of definitions that scripts make, apart from classes. -/
def Script.kinds : List SectionKind := .entryPoint :: .aliasName :: Statement.kinds

/-- The kinds of definitions that files make, apart from classes. -/
def Intake.kinds : List SectionKind := .formatView :: Script.kinds

/-- What holds of all that files may contribute if their definitions are of some kinds: of
    what defines nothing, of classes, and of definitions with the rivals of their kinds. -/
structure Contribution.HoldsFor (kinds : List SectionKind) (P : Contribution → Prop) : Prop where
  plain : ∀ {c : Contribution}, c.definition? = none → P c
  classType : ∀ c text place, P (.classType c text place)
  definition : ∀ kind ∈ kinds, ∀ key value place,
    P (.definition kind key value kind.rivals place)

section

open Contribution

variable {P : Contribution → Prop}

theorem Contribution.HoldsFor.statements (h : HoldsFor Script.kinds P) :
    HoldsFor Statement.kinds P :=
  { h with definition := fun kind hkind =>
      h.definition kind (List.mem_cons_of_mem _ (List.mem_cons_of_mem _ hkind)) }

theorem Contribution.HoldsFor.scripts (h : HoldsFor Intake.kinds P) : HoldsFor Script.kinds P :=
  { h with definition := fun kind hkind => h.definition kind (List.mem_cons_of_mem _ hkind) }

theorem EnumDef.holds_contribution (h : HoldsFor Statement.kinds P) (e : EnumDef)
    (place : Place) : P (e.contribution place) := by
  unfold contribution
  split
  · exact h.definition .enumeration (by decide) _ _ _
  · exact h.plain rfl
  · exact h.plain rfl

theorem Statement.forall_contributions (h : HoldsFor Statement.kinds P) (s : Statement) :
    ∀ c ∈ s.contributions, P c := by
  unfold contributions
  split
  · exact List.forall_mem_map.mpr fun f _ => h.plain rfl
  · exact List.forall_mem_singleton.mpr (h.plain rfl)
  · exact List.forall_mem_singleton.mpr (EnumDef.holds_contribution h _ _)
  · exact List.forall_mem_singleton.mpr (h.classType _ _ _)
  · exact List.forall_mem_singleton.mpr (h.definition .variable (by decide) _ _ _)
  · exact List.forall_mem_singleton.mpr (h.definition .function (by decide) _ _ _)
  · exact List.forall_mem_singleton.mpr (h.plain rfl)

theorem Statement.forall_flatMap_contributions (h : HoldsFor Statement.kinds P)
    (ss : List Statement) : ∀ c ∈ ss.flatMap Statement.contributions, P c := by
  intro c hc
  obtain ⟨s, -, hc⟩ := List.mem_flatMap.mp hc
  exact s.forall_contributions h c hc

theorem EntryPoint.forall_contributions (h : HoldsFor Script.kinds P) (e : EntryPoint) :
    ∀ c ∈ e.contributions, P c := by
  refine List.forall_mem_append.mpr
    ⟨Statement.forall_flatMap_contributions h.statements e.directives, ?_⟩
  refine List.forall_mem_cons.mpr ⟨h.definition .entryPoint (by decide) _ _ _, ?_⟩
  exact List.forall_mem_map.mpr fun a _ => h.definition .aliasName (by decide) _ _ _

theorem Script.forall_entryContributions (h : HoldsFor Script.kinds P) (known : KnownAliases)
    (filename : Text) (sc : Script) : ∀ c ∈ sc.entryContributions known filename, P c := by
  unfold entryContributions
  split
  · exact List.forall_mem_singleton.mpr (h.plain rfl)
  · refine List.forall_mem_append.mpr ⟨?_, EntryPoint.forall_contributions h _⟩
    exact List.forall_mem_map.mpr fun r _ => h.plain rfl

theorem forall_sourceContributions (h : HoldsFor Script.kinds P) (known : KnownAliases)
    (source filename : Text) (position : Option (Int × Int)) :
    ∀ c ∈ sourceContributions known source filename position, P c := by
  simp only [sourceContributions]
  refine List.forall_mem_cons.mpr ⟨h.plain rfl, ?_⟩
  split
  · exact List.forall_mem_singleton.mpr (h.plain rfl)
  · split
    · exact List.forall_mem_cons.mpr ⟨h.plain rfl, Script.forall_entryContributions h _ _ _⟩
    · unfold Script.statementContributions
      split
      · exact List.forall_mem_singleton.mpr (h.plain rfl)
      · exact List.forall_mem_cons.mpr
          ⟨h.plain rfl, Statement.forall_flatMap_contributions h.statements _⟩

theorem Intake.forall_contributions (h : HoldsFor Intake.kinds P) (known : KnownAliases)
    (i : Intake) : ∀ c ∈ i.contributions known, P c := by
  cases i with
  | script source filename position => exact forall_sourceContributions h.scripts known _ _ _
  | format document filename resource =>
    simp only [contributions]
    split
    · exact List.forall_mem_singleton.mpr (h.plain rfl)
    · refine List.forall_mem_append.mpr ⟨?_, List.forall_mem_singleton.mpr (h.plain rfl)⟩
      exact List.forall_mem_map.mpr fun v _ => h.definition .formatView (by decide) _ _ _

end

/-! ### Rivals of definitions -/

def AllStandard (cs : List Contribution) : Prop := ∀ c ∈ cs, c.IsStandard

theorem AllStandard.flatMap {α : Type} {f : α → List Contribution} {xs : List α}
    (h : ∀ x ∈ xs, AllStandard (f x)) : AllStandard (xs.flatMap f) := by
  intro e he
  obtain ⟨x, hx, he⟩ := List.mem_flatMap.mp he
  exact h x hx e he

theorem Contribution.isStandard_of_none {c : Contribution} (h : c.definition? = none) :
    c.IsStandard := by
  intro d hd
  rw [h] at hd
  cases hd

theorem Contribution.isStandard_definition (kind : SectionKind) (key value : Text)
    (place : Place) : (Contribution.definition kind key value kind.rivals place).IsStandard := by
  intro d hd
  cases hd
  rfl

theorem Contribution.holdsFor_isStandard (kinds : List SectionKind) :
    HoldsFor kinds Contribution.IsStandard where
  plain := isStandard_of_none
  classType c text place := by
    intro d hd
    cases hd
    rfl
  definition kind _ := isStandard_definition kind

/-- Whatever a file contributes, its definitions have the rivals of their kinds. -/
theorem Intake.allStandard_contributions (known : KnownAliases) (i : Intake) :
    AllStandard (i.contributions known) :=
  i.forall_contributions (Contribution.holdsFor_isStandard _) known

/-! ### The order of files -/

def Substance.takeAll (s : Substance) (cs : List Contribution) : Option Substance :=
  steps take s cs

theorem Substance.takeAll_cons (s : Substance) (c : Contribution) (cs : List Contribution) :
    s.takeAll (c :: cs) = (s.take c).bind (·.takeAll cs) := by
  cases hc : s.take c with
  | none =>
    simp only [takeAll, steps, List.foldl_cons, Option.bind_some, hc, Option.bind_none]
    induction cs with
    | nil => rfl
    | cons c cs ih => simpa using ih
  | some t => simp [takeAll, steps, hc]

/-- A run goes through exactly if it does on the substance, and ends in its outcome. -/
theorem Draft.substance_takeAll (d : Draft) (cs : List Contribution) :
    d.substance.takeAll cs =
      match d.takeAll cs with
      | (d', none) => some d'.substance
      | (_, some _) => none := by
  induction cs generalizing d with
  | nil => rfl
  | cons c cs ih =>
    rw [Substance.takeAll_cons, ← substance_take]
    simp only [takeAll]
    rcases d.take c with f | d'
    · rfl
    · exact ih d'

theorem Draft.substance_ingestAll (known : KnownAliases) (is : List Intake) :
    ({} : Draft).substance.takeAll (is.flatMap (Intake.contributions known)) =
      match ({} : Draft).ingestAll known is with
      | (d, none) => some d.substance
      | (_, some _) => none := by
  rw [ingestAll_eq_takeAll, substance_takeAll]

/-- Whether two drafts hold the same, order, spelling and file names aside. -/
structure Draft.Agrees (d e : Draft) : Prop where
  definitions : ∀ kind key, ((d.registry.sectionOf kind).get? key).map Entry.value =
    ((e.registry.sectionOf kind).get? key).map Entry.value
  version : d.requirement.version = e.requirement.version
  editions : d.requirement.editions = e.requirement.editions
  elevation : d.requirement.elevation = e.requirement.elevation
  modules : ∀ key, (d.requirement.modules.get? key).map ModuleSpec.demand =
    (e.requirement.modules.get? key).map ModuleSpec.demand
  namespaces : ∀ key, d.imports.namespaces.contains key = e.imports.namespaces.contains key
  assemblies : ∀ key, d.imports.assemblies.contains key = e.imports.assemblies.contains key
  warnings : d.warnings.length = e.warnings.length

theorem Draft.agrees_of_substance_eq {d e : Draft} (h : d.substance = e.substance) :
    d.Agrees e := by
  simp only [substance, Substance.mk.injEq, Requirement.needs, Needs.mk.injEq] at h
  obtain ⟨⟨hversion, heditions, hmodules, helevation⟩, hnames, hassemblies, hdefs, hwarn⟩ := h
  exact {
    definitions := fun kind key => congrFun hdefs (kind, key)
    version := hversion
    editions := heditions
    elevation := helevation
    modules := congrFun hmodules
    namespaces := congrFun hnames
    assemblies := congrFun hassemblies
    warnings := hwarn }

/-- The order of the files of a run makes no difference to whether it fails, and none to
    what the module holds if it does not. -/
theorem Draft.ingestAll_perm (known : KnownAliases) {is js : List Intake}
    (h : is.Perm js) :
    let d := ({} : Draft).ingestAll known is
    let e := ({} : Draft).ingestAll known js
    (d.2.isSome ↔ e.2.isSome) ∧ (d.2 = none → e.2 = none → d.1.Agrees e.1) := by
  intro d e
  have hstandard : AllStandard (is.flatMap (Intake.contributions known)) :=
    .flatMap fun i _ => i.allStandard_contributions known
  have hsame : ({} : Draft).substance.takeAll (is.flatMap (Intake.contributions known)) =
      ({} : Draft).substance.takeAll (js.flatMap (Intake.contributions known)) :=
    steps_perm (h.flatMap_right _)
      (fun a ha b hb => Substance.take_comm (hstandard a ha) (hstandard b hb)) _
  rw [substance_ingestAll, substance_ingestAll] at hsame
  change (match d with | (d, none) => some d.substance | (_, some _) => none) =
    (match e with | (e, none) => some e.substance | (_, some _) => none) at hsame
  rcases hd : d with ⟨d', _ | f⟩ <;> rcases he : e with ⟨e', _ | g⟩ <;>
    simp only [hd, he, Option.some.injEq, reduceCtorEq] at hsame ⊢
  · exact ⟨by simp, fun _ _ => agrees_of_substance_eq hsame⟩
  · simp

/-- Two files that bring in one name in two spellings, in either order. -/
theorem Draft.ingestAll_perm_two_spellings :
    let first : Intake := .script
      "#Requires -Version 5.1
using namespace MY.space
function Test { 1 }".toList
      "first.ps1".toList none
    let second : Intake := .script
      "#Requires -Version 3
using namespace my.Space
function Test { 1 }".toList
      "second.ps1".toList none
    let d := ({} : Draft).ingestAll Table.empty [first, second]
    let e := ({} : Draft).ingestAll Table.empty [second, first]
    d.2 = none ∧ e.2 = none ∧ d.1.Agrees e.1 := by
  intro first second d e
  have hd : d.2 = none := by decide +kernel
  have he : e.2 = none := by decide +kernel
  exact ⟨hd, he, (Draft.ingestAll_perm Table.empty (List.Perm.swap second first [])).2 hd he⟩

end ScriptModule
