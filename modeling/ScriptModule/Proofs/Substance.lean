/-
  ScriptModule/Proofs/Substance.lean
  ==================================
  **The substance of a draft.**  What a draft holds when the order of its rows, the
  spelling of its names and the files they came from are put aside.  Whether a
  contribution is taken in, and what the draft then holds, depends on the substance
  alone, and on the substance any two contributions commute.
-/
import Mathlib.Logic.Function.Basic
import ScriptModule.Draft.Basic
import ScriptModule.Proofs.Demand

namespace ScriptModule

/-! ### Steps that commute -/

section Steps

variable {σ γ : Type}

/-- Of two steps that go through, either may be taken first. -/
def Commutes (step : σ → γ → Option σ) (a b : γ) : Prop :=
  ∀ s t u, step s a = some t → step t b = some u →
    ∃ t', step s b = some t' ∧ step t' a = some u

/-- Steps up to the first one that does not go through. -/
def steps (step : σ → γ → Option σ) (s : σ) (cs : List γ) : Option σ :=
  cs.foldl (fun o c => o.bind (step · c)) (some s)

/-- Steps that commute pairwise give the same in every order. -/
theorem steps_perm {step : σ → γ → Option σ} {cs es : List γ} (hperm : cs.Perm es)
    (hcomm : ∀ a ∈ cs, ∀ b ∈ cs, Commutes step a b) (s : σ) :
    steps step s cs = steps step s es := by
  apply hperm.foldl_eq'
  intro a ha b hb o
  cases o with
  | none => rfl
  | some s =>
    ext u
    simp only [Option.bind_some, Option.bind_eq_some_iff]
    constructor
    · rintro ⟨t, h1, h2⟩
      exact hcomm a ha b hb s t u h1 h2
    · rintro ⟨t, h1, h2⟩
      exact hcomm b hb a ha s t u h1 h2

end Steps

/-! ### What is required -/

/-- What a requirement asks for; a module constraint counts by its demand. -/
structure Needs where
  version : Option (Nat × Nat)
  editions : Option (List Text)
  modules : Text → Option Demand
  elevation : Bool

namespace Needs

def version? (kept : Option (Nat × Nat)) : Fact → Option (Option (Nat × Nat))
  | .version t =>
    match Version.read? t with
    | .ok (some v) => some (some (Requirement.higher kept (Requirement.majorMinor v)))
    | _ => none
  | .legacyAssembly => none
  | _ => some kept

def editions? (kept : Option (List Text)) : Fact → Option (Option (List Text))
  | .editions names =>
    let given := Requirement.editionSet names
    if kept.getD given = given then some (some given) else none
  | _ => some kept

def ask? (kept : Text → Option Demand) (key : Text) (q : Demand) :
    Option (Text → Option Demand) :=
  (((kept key).getD {}).with? q).map fun e => Function.update kept key (some e)

def modules? (kept : Text → Option Demand) : Fact → Option (Text → Option Demand)
  | .module spec =>
    match spec.checkVersions with
    | .error _ => none
    | .ok _ => ask? kept (Text.fold spec.name) spec.asked
  | _ => some kept

def elevationAfter (kept : Bool) : Fact → Bool
  | .elevation => true
  | _ => kept

def require (n : Needs) (f : Fact) : Option Needs :=
  match version? n.version f, editions? n.editions f, modules? n.modules f with
  | some version, some editions, some modules =>
    some ⟨version, editions, modules, elevationAfter n.elevation f⟩
  | _, _, _ => none

theorem require_eq_some {n m : Needs} {f : Fact} :
    n.require f = some m ↔
      version? n.version f = some m.version ∧ editions? n.editions f = some m.editions ∧
        modules? n.modules f = some m.modules ∧ elevationAfter n.elevation f = m.elevation := by
  obtain ⟨version, editions, modules, elevation⟩ := m
  simp only [require]
  split <;> simp_all

theorem version?_comm (f g : Fact) : Commutes version? f g := by
  intro v w x hf hg
  cases f <;> cases g <;> simp only [version?] at * <;>
    grind [Requirement.higher_right_comm]

theorem editions?_comm (f g : Fact) : Commutes editions? f g := by
  intro v w x hf hg
  cases f <;> cases g <;> simp only [editions?] at * <;> grind

theorem ask?_comm {kept ms ns : Text → Option Demand} {j k : Text} {p q : Demand}
    (hp : ask? kept j p = some ms) (hq : ask? ms k q = some ns) :
    ∃ ms', ask? kept k q = some ms' ∧ ask? ms' j p = some ns := by
  simp only [ask?, Option.map_eq_some_iff] at hp hq
  obtain ⟨d, hd, rfl⟩ := hp
  obtain ⟨e, he, rfl⟩ := hq
  by_cases hkey : j = k
  · subst hkey
    have hcomm := Demand.with?_comm ((kept j).getD {}) p q
    rw [hd, Option.bind_some] at hcomm
    rw [Function.update_self, Option.getD_some] at he
    obtain ⟨d', hd', he'⟩ := Option.bind_eq_some_iff.mp (hcomm.symm.trans he)
    refine ⟨Function.update kept j (some d'), by simp [ask?, hd'], ?_⟩
    simp [ask?, he']
  · rw [Function.update_of_ne (Ne.symm hkey)] at he
    refine ⟨Function.update kept k (some e), by simp [ask?, he], ?_⟩
    simp [ask?, Function.update_of_ne hkey, hd, Function.update_comm hkey]

theorem modules?_comm (f g : Fact) : Commutes modules? f g := by
  intro kept ms ns hf hg
  cases f with
  | module p =>
    cases g with
    | module q =>
      rcases hp : p.checkVersions with e | _ <;> rcases hq : q.checkVersions with e' | _ <;>
        simp only [modules?, hp, hq, reduceCtorEq] at *
      exact ask?_comm hf hg
    | _ => exact ⟨kept, rfl, by rw [hf]; exact hg⟩
  | _ => 
    obtain rfl : kept = ms := Option.some.inj hf
    cases g <;> exact ⟨ns, hg, rfl⟩

/-- Facts may be taken in in either order. -/
theorem require_comm (f g : Fact) : Commutes require f g := by
  intro n m k hf hg
  obtain ⟨hversion, heditions, hmodules, helevation⟩ := require_eq_some.mp hf
  obtain ⟨hversion', heditions', hmodules', helevation'⟩ := require_eq_some.mp hg
  obtain ⟨version, hv, hv'⟩ := version?_comm f g _ _ _ hversion hversion'
  obtain ⟨editions, he, he'⟩ := editions?_comm f g _ _ _ heditions heditions'
  obtain ⟨modules, hm, hm'⟩ := modules?_comm f g _ _ _ hmodules hmodules'
  refine ⟨⟨version, editions, modules, elevationAfter n.elevation g⟩,
    require_eq_some.mpr ⟨hv, he, hm, rfl⟩, require_eq_some.mpr ⟨hv', he', hm', ?_⟩⟩
  rw [← helevation', ← helevation]
  cases f <;> cases g <;> rfl

end Needs

/-! ### What is defined -/

/-- The kinds that a name may not also be defined as. -/
def SectionKind.rivals : SectionKind → List SectionKind
  | .function => [.entryPoint]
  | .entryPoint => [.function]
  | _ => []

theorem SectionKind.mem_rivals_comm (j k : SectionKind) : j ∈ k.rivals ↔ k ∈ j.rivals := by
  cases j <;> cases k <;> decide

/-- Definitions by kind and folded name. -/
abbrev Definitions := SectionKind × Text → Option Text

/-- A definition that is to be entered; the name is folded. -/
structure Definition where
  kind : SectionKind
  name : Text
  value : Text
  rivals : List SectionKind

namespace Definition

def slot (d : Definition) : SectionKind × Text := (d.kind, d.name)

def enter? (d : Definition) (ds : Definitions) : Option Definitions :=
  if (∀ k ∈ d.rivals, ds (k, d.name) = none) ∧ (ds d.slot).getD d.value = d.value then
    some (Function.update ds d.slot (some d.value))
  else none

theorem enter?_eq_some {d : Definition} {ds es : Definitions} :
    d.enter? ds = some es ↔
      (∀ k ∈ d.rivals, ds (k, d.name) = none) ∧ (ds d.slot).getD d.value = d.value ∧
        Function.update ds d.slot (some d.value) = es := by
  simp only [enter?]
  split <;> simp_all

def noise (d : Definition) (ds : Definitions) : Nat := if (ds d.slot).isSome then 1 else 0

/-- Definitions whose rivals are those of their kind may be entered in either order. -/
theorem enter?_comm {d e : Definition} (hd : d.rivals = d.kind.rivals)
    (he : e.rivals = e.kind.rivals) {ds es fs : Definitions}
    (hfirst : d.enter? ds = some es) (hsecond : e.enter? es = some fs) :
    ∃ es', e.enter? ds = some es' ∧ d.enter? es' = some fs ∧
      d.noise ds + e.noise es = e.noise ds + d.noise es' := by
  obtain ⟨hfree, hsame, rfl⟩ := enter?_eq_some.mp hfirst
  obtain ⟨hfree', hsame', rfl⟩ := enter?_eq_some.mp hsecond
  by_cases hslot : d.slot = e.slot
  · -- both say the same, so either is the other
    obtain rfl : d = e := by
      obtain ⟨kind, name, value, rivals⟩ := d
      obtain ⟨kind', name', value', rivals'⟩ := e
      simp only [slot, Prod.mk.injEq] at hslot
      obtain ⟨rfl, rfl⟩ := hslot
      simp only [slot, Function.update_self, Option.getD_some] at hsame'
      simp_all
    exact ⟨_, hfirst, hsecond, rfl⟩
  · have hne : ∀ k ∈ e.rivals, (k, e.name) ≠ d.slot := by
      intro k hk heq
      simpa [heq] using hfree' k hk
    have hne' : ∀ k ∈ d.rivals, (k, d.name) ≠ e.slot := by
      intro k hk heq
      obtain ⟨rfl, hname⟩ := Prod.mk.inj heq
      rw [hd, SectionKind.mem_rivals_comm, ← he] at hk
      exact hne _ hk (by rw [slot, hname])
    refine ⟨Function.update ds e.slot (some e.value), enter?_eq_some.mpr ⟨?_, ?_, rfl⟩,
      enter?_eq_some.mpr ⟨?_, ?_, ?_⟩, ?_⟩
    · intro k hk
      simpa [Function.update_of_ne (hne k hk)] using hfree' k hk
    · simpa [Function.update_of_ne (Ne.symm hslot)] using hsame'
    · intro k hk
      simpa [Function.update_of_ne (hne' k hk)] using hfree k hk
    · simpa [Function.update_of_ne hslot] using hsame
    · rw [Function.update_comm hslot]
    · simp [noise, Function.update_of_ne hslot, Function.update_of_ne (Ne.symm hslot),
        Nat.add_comm]

end Definition

namespace Contribution

def definition? : Contribution → Option Definition
  | .definition kind key value rivals _ => some ⟨kind, Text.fold key, value, rivals⟩
  | .classType c text _ => some ⟨.classType, Text.fold c.name, text, []⟩
  | _ => none

/-- Whether what a contribution defines has the rivals of its kind. -/
def IsStandard (c : Contribution) : Prop := ∀ d ∈ c.definition?, d.rivals = d.kind.rivals

def needs? (n : Needs) : Contribution → Option Needs
  | .fact f _ => n.require f
  | .refusal _ => none
  | _ => some n

def namespace? : Contribution → Option Text
  | .importing i _ =>
    if i.kind = .names then some (Text.fold (Namespace.canonical i.name)) else none
  | _ => none

def assembly? : Contribution → Option Text
  | .importing i _ =>
    if i.kind = .assembly then some (Text.fold (Assembly.normalize i.name)) else none
  | _ => none

def definitions? (ds : Definitions) (c : Contribution) : Option Definitions :=
  match c.definition? with
  | some d => d.enter? ds
  | none => some ds

def noise (ds : Definitions) (c : Contribution) : Nat :=
  match c with
  | .warning _ => 1
  | .importing i _ => if i.kind = .module ∨ i.kind = .unknown then 1 else 0
  | c => (c.definition?.map (·.noise ds)).getD 0

theorem noise_of_some {c : Contribution} {d : Definition} (h : c.definition? = some d)
    (ds : Definitions) : c.noise ds = d.noise ds := by
  cases c <;> simp_all [definition?, noise]

theorem noise_of_none {c : Contribution} (h : c.definition? = none) (ds es : Definitions) :
    c.noise ds = c.noise es := by
  cases c <;> simp_all [definition?, noise]

end Contribution

/-! ### All of it -/

/-- What a draft holds; of the warnings only their number. -/
structure Substance where
  needs : Needs
  namespaces : Text → Bool
  assemblies : Text → Bool
  definitions : Definitions
  warnings : Nat

namespace Substance

def take (s : Substance) (c : Contribution) : Option Substance :=
  match c.needs? s.needs, c.definitions? s.definitions with
  | some needs, some definitions => some {
      needs
      namespaces := fun k => s.namespaces k || c.namespace? = some k
      assemblies := fun k => s.assemblies k || c.assembly? = some k
      definitions
      warnings := s.warnings + c.noise s.definitions }
  | _, _ => none

section Equations

variable (s : Substance)

theorem take_event (e : LogEvent) : s.take (.event e) = some s := by
  simp [take, Contribution.needs?, Contribution.definitions?, Contribution.definition?,
    Contribution.namespace?, Contribution.assembly?, Contribution.noise]

theorem take_warning (r : Report) :
    s.take (.warning r) = some { s with warnings := s.warnings + 1 } := by
  simp [take, Contribution.needs?, Contribution.definitions?, Contribution.definition?,
    Contribution.namespace?, Contribution.assembly?, Contribution.noise]

theorem take_fact (f : Fact) (place : Place) :
    s.take (.fact f place) = (s.needs.require f).map fun n => { s with needs := n } := by
  cases hneeds : s.needs.require f <;>
    simp [take, Contribution.needs?, Contribution.definitions?, Contribution.definition?,
      Contribution.namespace?, Contribution.assembly?, Contribution.noise, hneeds]

theorem take_defining {c : Contribution} {d : Definition} (h : c.definition? = some d) :
    s.take c = (d.enter? s.definitions).map fun ds =>
      { s with definitions := ds, warnings := s.warnings + d.noise s.definitions } := by
  cases henter : d.enter? s.definitions <;> cases c <;>
    simp_all [take, Contribution.needs?, Contribution.definitions?, Contribution.definition?,
      Contribution.namespace?, Contribution.assembly?, Contribution.noise]

end Equations

theorem take_eq_some {s t : Substance} {c : Contribution} :
    s.take c = some t ↔
      c.needs? s.needs = some t.needs ∧
      (fun k => s.namespaces k || decide (c.namespace? = some k)) = t.namespaces ∧
      (fun k => s.assemblies k || decide (c.assembly? = some k)) = t.assemblies ∧
      c.definitions? s.definitions = some t.definitions ∧
      s.warnings + c.noise s.definitions = t.warnings := by
  obtain ⟨needs, namespaces, assemblies, definitions, warnings⟩ := t
  simp only [take]
  split <;> simp_all

theorem needs?_comm (a b : Contribution) : Commutes Contribution.needs? a b := by
  intro n m k ha hb
  cases a with
  | fact f p =>
    cases b with
    | fact g q => exact Needs.require_comm f g n m k ha hb
    | refusal _ => cases hb
    | _ => exact ⟨n, rfl, (Option.some.inj hb) ▸ ha⟩
  | refusal _ => cases ha
  | _ =>
    obtain rfl : n = m := Option.some.inj ha
    exact ⟨k, hb, rfl⟩

theorem definitions?_comm {a b : Contribution} (ha : a.IsStandard) (hb : b.IsStandard)
    {ds es fs : Definitions} (hfirst : a.definitions? ds = some es)
    (hsecond : b.definitions? es = some fs) :
    ∃ es', b.definitions? ds = some es' ∧ a.definitions? es' = some fs ∧
      a.noise ds + b.noise es = b.noise ds + a.noise es' := by
  simp only [Contribution.definitions?] at hfirst hsecond ⊢
  rcases hda : a.definition? with _ | d
  · simp only [hda] at hfirst ⊢
    obtain rfl : ds = es := Option.some.inj hfirst
    refine ⟨fs, hsecond, rfl, ?_⟩
    rw [Contribution.noise_of_none hda fs ds, Nat.add_comm]
  · rcases hdb : b.definition? with _ | e
    · simp only [hda, hdb] at hfirst hsecond ⊢
      obtain rfl : es = fs := Option.some.inj hsecond
      refine ⟨ds, rfl, hfirst, ?_⟩
      rw [Contribution.noise_of_none hdb es ds, Nat.add_comm]
    · simp only [hda, hdb] at hfirst hsecond
      simp only [Contribution.noise_of_some hda, Contribution.noise_of_some hdb]
      exact Definition.enter?_comm (ha d hda) (hb e hdb) hfirst hsecond

/-- On the substance, contributions may be taken in in either order. -/
theorem take_comm {a b : Contribution} (ha : a.IsStandard) (hb : b.IsStandard) :
    Commutes take a b := by
  intro s t u hfirst hsecond
  obtain ⟨hneeds, hnames, hassemblies, hdefs, hwarn⟩ := take_eq_some.mp hfirst
  obtain ⟨hneeds', hnames', hassemblies', hdefs', hwarn'⟩ := take_eq_some.mp hsecond
  obtain ⟨needs, hn, hn'⟩ := needs?_comm a b _ _ _ hneeds hneeds'
  obtain ⟨defs, hd, hd', hnoise⟩ := definitions?_comm ha hb hdefs hdefs'
  refine ⟨⟨needs, _, _, defs, _⟩, take_eq_some.mpr ⟨hn, rfl, rfl, hd, rfl⟩,
    take_eq_some.mpr ⟨hn', ?_, ?_, hd', ?_⟩⟩
  · rw [← hnames', ← hnames]
    funext k
    exact Bool.or_right_comm _ _ _
  · rw [← hassemblies', ← hassemblies]
    funext k
    exact Bool.or_right_comm _ _ _
  · change s.warnings + b.noise s.definitions + a.noise defs = u.warnings
    omega

end Substance

/-! ### The substance of what is kept -/

def Requirement.needs (r : Requirement) : Needs where
  version := r.version
  editions := r.editions
  modules := fun k => (r.modules.get? k).map ModuleSpec.demand
  elevation := r.elevation

def Registry.substance (r : Registry) : Definitions :=
  fun slot => ((r.sectionOf slot.1).get? slot.2).map Entry.value

/-- What a draft holds. -/
def Draft.substance (d : Draft) : Substance where
  needs := d.requirement.needs
  namespaces := d.imports.namespaces.contains
  assemblies := d.imports.assemblies.contains
  definitions := d.registry.substance
  warnings := d.warnings.length

@[simp] theorem Draft.substance_warn (d : Draft) (r : Report) :
    (d.warn r).substance = { d.substance with warnings := d.substance.warnings + 1 } := by
  simp [warn, say, substance]

theorem Requirement.needs_insert (r : Requirement) (key : Text) (c : ModuleSpec) :
    { r with modules := r.modules.insert key c }.needs =
      { r.needs with modules := Function.update r.needs.modules key (some c.demand) } := by
  simp only [needs, Needs.mk.injEq, true_and, and_true]
  funext k
  by_cases hk : k = key <;> simp [hk]

theorem Requirement.needs_require (r : Requirement) (f : Fact) :
    (r.require f).toOption.map needs = r.needs.require f := by
  cases f with
  | legacyAssembly => rfl
  | version t =>
    rcases hread : Version.read? t with e | _ | v <;>
      simp [require, needs, Needs.require, Needs.version?, Needs.editions?, Needs.modules?,
        Needs.elevationAfter, hread, Except.toOption]
  | editions names =>
    rcases hkept : r.editions with _ | kept
    · simp [require, needs, Needs.require, Needs.version?, Needs.editions?, Needs.modules?,
        Needs.elevationAfter, hkept, Except.toOption]
    · by_cases hsame : kept = editionSet names <;>
        simp [require, needs, Needs.require, Needs.version?, Needs.editions?, Needs.modules?,
          Needs.elevationAfter, hkept, hsame, Except.toOption]
  | elevation => rfl
  | module spec =>
    have hdemand : (((r.modules.get? (Text.fold spec.name)).getD { name := spec.name }).demand)
        = (r.needs.modules (Text.fold spec.name)).getD {} := by
      simp only [needs]
      cases r.modules.get? (Text.fold spec.name) <;> rfl
    have htight := ModuleSpec.demand_tighten
      ((r.modules.get? (Text.fold spec.name)).getD { name := spec.name }) spec
    rw [hdemand] at htight
    rcases hc : ((r.modules.get? (Text.fold spec.name)).getD
      { name := spec.name }).tighten spec with e | c <;> rw [hc] at htight
    · rcases hcheck : spec.checkVersions with e' | _
      · simp [require, hc, Needs.require, Needs.version?, Needs.editions?, Needs.modules?,
          hcheck, Except.toOption]
      · have hnone : ((r.needs.modules (Text.fold spec.name)).getD {}).with? spec.asked = none := by
          simpa [hcheck, Except.toOption] using htight.symm
        simp [require, hc, Needs.require, Needs.version?, Needs.editions?, Needs.modules?,
          Needs.ask?, hcheck, hnone, Except.toOption]
    · rcases hcheck : spec.checkVersions with e' | _
      · simp [hcheck, Except.toOption] at htight
      · have hsome : ((r.needs.modules (Text.fold spec.name)).getD {}).with? spec.asked
            = some c.demand := by
          simpa [hcheck, Except.toOption] using htight.symm
        simp [require, hc, Needs.require, Needs.version?, Needs.editions?, Needs.modules?,
          Needs.ask?, Needs.elevationAfter, hcheck, hsome, needs_insert, Except.toOption]

theorem Registry.rival?_eq_none {r : Registry} {key : Text} {rivals : List SectionKind} :
    r.rival? key rivals = none ↔ ∀ k ∈ rivals, r.substance (k, Text.fold key) = none := by
  simp [rival?, substance, Section.find?]

theorem Registry.substance_insert (r : Registry) (kind : SectionKind) (key value : Text)
    (filename : Option Text) :
    (⟨r.sections.insert kind ((r.sectionOf kind).put key value filename)⟩ : Registry).substance =
      Function.update r.substance (kind, Text.fold key) (some value) := by
  funext ⟨k, name⟩
  by_cases hk : k = kind
  · subst hk
    by_cases hname : name = Text.fold key <;>
      simp [substance, sectionOf, Section.put, hname]
  · simp [substance, sectionOf, hk]

theorem Registry.substance_add (r : Registry) (kind : SectionKind) (key value : Text)
    (filename : Option Text) (rivals : List SectionKind) :
    let d : Definition := ⟨kind, Text.fold key, value, rivals⟩
    match r.add kind key value filename rivals with
    | (r', none) => d.enter? r.substance = some r'.substance ∧ d.noise r.substance = 0
    | (r', some p) => r' = r ∧
        if p.severity.isFatal then d.enter? r.substance = none
        else d.enter? r.substance = some r.substance ∧ d.noise r.substance = 1 := by
  intro d
  rcases hrival : r.rival? key rivals with _ | ⟨other, e⟩
  · have hfree := Registry.rival?_eq_none.mp hrival
    rcases hentry : (r.sectionOf kind).find? key with _ | e
    · have hslot : r.substance d.slot = none := congrArg (Option.map Entry.value) hentry
      simp only [add, hrival, hentry]
      refine ⟨Definition.enter?_eq_some.mpr ⟨hfree, by simp [hslot], ?_⟩, by
        simp [Definition.noise, hslot]⟩
      rw [substance_insert]
      rfl
    · have hslot : r.substance d.slot = some e.value :=
        congrArg (Option.map Entry.value) hentry
      by_cases hsame : e.value = value
      · simp only [add, hrival, hentry, hsame, if_true]
        refine ⟨trivial, Definition.enter?_eq_some.mpr ⟨hfree, ?_, ?_⟩, ?_⟩
        · simp [hslot, hsame, d]
        · exact Function.update_eq_self_iff.mpr (by rw [hslot, hsame])
        · simp [Definition.noise, hslot]
      · simp [add, hrival, hentry, hsame, Problem.severity, Severity.isFatal,
          Definition.enter?, hslot, d]
  · have htaken : ¬ ∀ k ∈ rivals, r.substance (k, Text.fold key) = none := by
      rw [← Registry.rival?_eq_none, hrival]
      simp
    simp [add, hrival, Problem.severity, Severity.isFatal, Definition.enter?, d, htaken]

theorem Draft.substance_judge (d : Draft) (place : Place) (problem : Option Problem) :
    (d.judge place problem).toOption.map substance =
      match problem with
      | none => some d.substance
      | some p =>
        if p.severity.isFatal then none
        else some { d.substance with warnings := d.substance.warnings + 1 } := by
  cases problem with
  | none => rfl
  | some p =>
    simp only [judge]
    split <;> simp [Except.toOption]

theorem Draft.substance_define (d : Draft) (kind : SectionKind) (key value : Text)
    (rivals : List SectionKind) (place : Place) (classes : Table Text DeclaredClass) :
    let e : Definition := ⟨kind, Text.fold key, value, rivals⟩
    let (registry, problem) := d.registry.add kind key value place.filename rivals
    ({ d with registry := registry, classes := classes }.judge place problem).toOption.map
        substance =
      (e.enter? d.substance.definitions).map fun ds => { d.substance with
        definitions := ds
        warnings := d.substance.warnings + e.noise d.substance.definitions } := by
  intro e
  have hadd := Registry.substance_add d.registry kind key value place.filename rivals
  have hdefs : d.substance.definitions = d.registry.substance := rfl
  rcases hr : d.registry.add kind key value place.filename rivals with ⟨r', _ | p⟩
  · simp only [hr] at hadd ⊢
    obtain ⟨henter, hnoise⟩ := hadd
    rw [substance_judge, hdefs, henter, hnoise]
    rfl
  · simp only [hr] at hadd ⊢
    obtain ⟨rfl, hjudged⟩ := hadd
    rw [substance_judge, hdefs]
    by_cases hfatal : p.severity.isFatal = true
    · rw [if_pos hfatal] at hjudged
      simp [hfatal, e, hjudged]
    · rw [if_neg hfatal] at hjudged
      simp only [hfatal, e, hjudged.1, hjudged.2]
      rfl

theorem Table.contains_insertNew {α : Type} (t : Table Text α) (key : Text) (value : α) :
    (t.insertNew key value).contains = fun k => t.contains k || decide (key = k) := by
  funext k
  by_cases hthere : t.contains key = true
  · rw [insertNew, if_pos hthere]
    by_cases hk : key = k
    · simp [← hk, hthere]
    · simp [hk]
  · rw [insertNew, if_neg hthere]
    by_cases hk : key = k
    · simp [← hk, contains]
    · simp [contains, hk, Ne.symm hk]

theorem Draft.substance_import (d : Draft) (i : Import) (place : Place) :
    (d.take (.importing i place)).toOption.map substance =
      d.substance.take (.importing i place) := by
  obtain ⟨kind, name⟩ := i
  cases kind <;>
    simp [take, Imports.add, judge, Except.toOption, Problem.severity, Severity.isFatal,
      Substance.take, Contribution.needs?, Contribution.definitions?, Contribution.definition?,
      Contribution.namespace?, Contribution.assembly?, Contribution.noise, substance, say, warn,
      Table.contains_insertNew]

/-- Taking in a contribution is taking it in on the substance. -/
theorem Draft.substance_take (d : Draft) (c : Contribution) :
    (d.take c).toOption.map substance = d.substance.take c := by
  cases c with
  | event e => rw [Substance.take_event]; rfl
  | warning r => simp [take, Substance.take_warning, Except.toOption]
  | fact f place =>
    rw [Substance.take_fact]
    have hneeds : d.substance.needs = d.requirement.needs := rfl
    rw [hneeds, ← Requirement.needs_require]
    simp only [take]
    rcases d.requirement.require f with (p | n) | r <;> rfl
  | importing i place => exact substance_import d i place
  | definition kind key value rivals place =>
    rw [Substance.take_defining _ rfl]
    exact substance_define d kind key value rivals place d.classes
  | classType c text place =>
    rw [Substance.take_defining _ rfl]
    exact substance_define d .classType c.name text [] place _
  | refusal f => rfl

end ScriptModule
