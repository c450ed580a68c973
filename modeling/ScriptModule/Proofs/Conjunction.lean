/-
  ScriptModule/Proofs/Conjunction.lean
  ====================================
  **Merged requirements are the conjunction of what is asked for.**  The merge keeps one
  running aggregate: the highest version, the first exact version, the tightest bounds,
  each in the spelling it came in.  What the aggregate says about a version is what all
  facts taken in so far say together; one fact keeps this, and so does a run.
-/
import Mathlib.Data.Prod.Lex
import ScriptModule.Proofs.Demand

namespace ScriptModule

/-! ### What a demand admits -/

namespace Demand

/-- Whether a version with this key meets the bounds. -/
structure Admits (d : Demand) (k : List Nat) : Prop where
  pin : ∀ p, d.pin = some p → k = p
  low : ∀ l, d.low = some l → l ≤ k
  high : ∀ u, d.high = some u → k ≤ u

/-- The join of two demands admits what both of them admit. -/
theorem admits_join {d q : Demand} (h : d.fits q = true) (k : List Nat) :
    (d.join q).Admits k ↔ d.Admits k ∧ q.Admits k := by
  have hpin : clash d.pin q.pin = false := by
    simp only [fits, Bool.and_eq_true, Bool.not_eq_true'] at h
    exact h.1.1.2
  have hlow : (∀ l, (d.join q).low = some l → l ≤ k) ↔
      (∀ l, d.low = some l → l ≤ k) ∧ (∀ l, q.low = some l → l ≤ k) := by
    rcases hd : d.low with _ | a <;> rcases hq : q.low with _ | b <;> simp [join, hd, hq]
  have hhigh : (∀ u, (d.join q).high = some u → k ≤ u) ↔
      (∀ u, d.high = some u → k ≤ u) ∧ (∀ u, q.high = some u → k ≤ u) := by
    rcases hd : d.high with _ | a <;> rcases hq : q.high with _ | b <;> simp [join, hd, hq]
  have hexact : (∀ p, (d.join q).pin = some p → k = p) ↔
      (∀ p, d.pin = some p → k = p) ∧ (∀ p, q.pin = some p → k = p) := by
    rcases hd : d.pin with _ | a <;> rcases hq : q.pin with _ | b
    · simp [hd, hq]
    · simp [hd, hq]
    · simp [hd, hq]
    · -- two exact versions that do not clash are one
      obtain rfl : a = b := clash_eq_false.mp hpin a b hd hq
      simp [hd]
  constructor
  · rintro ⟨hp, hl, hu⟩
    exact ⟨⟨(hexact.mp hp).1, (hlow.mp hl).1, (hhigh.mp hu).1⟩,
      ⟨(hexact.mp hp).2, (hlow.mp hl).2, (hhigh.mp hu).2⟩⟩
  · rintro ⟨hd, hq⟩
    exact ⟨hexact.mpr ⟨hd.pin, hq.pin⟩, hlow.mpr ⟨hd.low, hq.low⟩, hhigh.mpr ⟨hd.high, hq.high⟩⟩

/-- A demand for an exact version next to a bound fits nothing, and no join makes one. -/
theorem pin_isRange_join {d q : Demand} (hd : (d.pin.isSome && d.isRange) = false)
    (h : d.fits q = true) : ((d.join q).pin.isSome && (d.join q).isRange) = false := by
  simp only [fits, Bool.and_eq_true, Bool.not_eq_true'] at h
  simp only [pin_join, isRange_join, Option.isSome_or]
  grind

end Demand

/-! ### What a constraint admits -/

namespace ModuleSpec

/-- Whether a version meets the bounds of a constraint in the order of version keys; a
    bound that is absent is met. -/
structure Admits (m : ModuleSpec) (v : List Nat) : Prop where
  exact : ∀ t, m.exactVersion = some t → Version.key v = Version.keyOf t
  atLeast : ∀ t, m.minVersion = some t → Version.less (Version.key v) (Version.keyOf t) = false
  atMost : ∀ t, m.maxVersion = some t → Version.less (Version.keyOf t) (Version.key v) = false

theorem admits_iff_demand (m : ModuleSpec) (v : List Nat) :
    m.Admits v ↔ m.demand.Admits (Version.key v) := by
  have hless : ∀ a b : List Nat, Version.less a b = false ↔ b ≤ a := by
    intro a b
    rw [← not_lt, ← Version.less_iff_lt, Bool.not_eq_true]
  constructor
  · rintro ⟨hexact, hlow, hhigh⟩
    constructor
    · intro p hp
      obtain ⟨t, ht, rfl⟩ := Option.map_eq_some_iff.mp hp
      exact hexact t ht
    · intro l hl
      obtain ⟨t, ht, rfl⟩ := Option.map_eq_some_iff.mp hl
      exact (hless _ _).mp (hlow t ht)
    · intro u hu
      obtain ⟨t, ht, rfl⟩ := Option.map_eq_some_iff.mp hu
      exact (hless _ _).mp (hhigh t ht)
  · rintro ⟨hpin, hlow, hhigh⟩
    constructor
    · intro t ht
      exact hpin _ (by simp [demand, ht])
    · intro t ht
      exact (hless _ _).mpr (hlow _ (by simp [demand, ht]))
    · intro t ht
      exact (hless _ _).mpr (hhigh _ (by simp [demand, ht]))

/-- Whether no exact version stands next to a bound. -/
def IsApart (m : ModuleSpec) : Prop :=
  m.exactVersion.isSome = true → m.minVersion = none ∧ m.maxVersion = none

theorem isApart_iff_demand (m : ModuleSpec) :
    m.IsApart ↔ (m.demand.pin.isSome && m.demand.isRange) = false := by
  simp only [IsApart, demand, Demand.isRange, Option.isSome_map]
  rcases m.exactVersion with _ | p <;> rcases m.minVersion with _ | l <;>
    rcases m.maxVersion with _ | u <;> simp

/-- The identity has no say in what versions are admitted. -/
theorem asked_admits (m : ModuleSpec) (k : List Nat) : m.asked.Admits k ↔ m.demand.Admits k :=
  ⟨fun h => ⟨h.pin, h.low, h.high⟩, fun h => ⟨h.pin, h.low, h.high⟩⟩

/-- A tightened constraint admits what the constraint and the specification admit. -/
theorem admits_tighten {c spec c' : ModuleSpec} (h : c.tighten spec = .ok c') (v : List Nat) :
    c'.Admits v ↔ c.Admits v ∧ spec.Admits v := by
  obtain ⟨-, hfits, rfl⟩ := tighten_eq_ok.mp h
  rw [admits_iff_demand, demand_merged, Demand.admits_join hfits, asked_admits,
    ← admits_iff_demand, ← admits_iff_demand]

theorem isApart_tighten {c spec c' : ModuleSpec} (hc : c.IsApart) (h : c.tighten spec = .ok c') :
    c'.IsApart := by
  obtain ⟨-, hfits, rfl⟩ := tighten_eq_ok.mp h
  rw [isApart_iff_demand] at hc ⊢
  rw [demand_merged]
  exact Demand.pin_isRange_join hc hfits

/-- A constraint without bounds admits every version. -/
theorem admits_plain (name : Text) (v : List Nat) : ({ name := name } : ModuleSpec).Admits v :=
  ⟨nofun, nofun, nofun⟩

theorem isApart_plain (name : Text) : ({ name := name } : ModuleSpec).IsApart := nofun

end ModuleSpec

/-! ### The highest version -/

/-- The first two numbers of a version text, if it can be read. -/
def Version.pair? (t : Text) : Option (Nat × Nat) :=
  match read? t with
  | .ok (some v) => some (Requirement.majorMinor v)
  | _ => none

/-- Whether `top` is the highest of some pairs; there is none if there are no pairs. -/
def IsHighest (top : Option (Nat × Nat)) (vs : List (Nat × Nat)) : Prop :=
  match top with
  | none => vs = []
  | some v => v ∈ vs ∧ ∀ w ∈ vs, toLex w ≤ toLex v

theorem IsHighest.eq_some_iff {top : Option (Nat × Nat)} {vs : List (Nat × Nat)}
    (h : IsHighest top vs) (v : Nat × Nat) :
    top = some v ↔ v ∈ vs ∧ ∀ w ∈ vs, toLex w ≤ toLex v := by
  cases top with
  | none =>
    have hnil : vs = [] := h
    simp [hnil]
  | some u =>
    obtain ⟨hmem, hbound⟩ := h
    constructor
    · rintro ⟨⟩
      exact ⟨hmem, hbound⟩
    · rintro ⟨hv, hle⟩
      have heq : toLex u = toLex v := le_antisymm (hle u hmem) (hbound v hv)
      exact congrArg some (toLex_inj.mp heq)

/-- The higher of two pairs is their maximum; the code writes the comparison out. -/
theorem Requirement.toLex_higher (k v : Nat × Nat) :
    toLex (higher (some k) v) = max (toLex k) (toLex v) := by
  have hlt : (k.1 < v.1 || (k.1 == v.1 && k.2 < v.2)) = true ↔ toLex k < toLex v := by
    simp [Prod.Lex.toLex_lt_toLex]
  unfold higher
  by_cases h : toLex k < toLex v
  · rw [max_eq_right h.le]
    simp only [hlt.mpr h, if_true]
  · rw [max_eq_left (not_lt.mp h)]
    simp only [mt hlt.mp h, Bool.false_eq_true, if_false]

theorem IsHighest.higher {top : Option (Nat × Nat)} {vs : List (Nat × Nat)}
    (h : IsHighest top vs) (v : Nat × Nat) :
    IsHighest (some (Requirement.higher top v)) (vs ++ [v]) := by
  cases top with
  | none =>
    obtain rfl : vs = [] := h
    simp [IsHighest, Requirement.higher]
  | some k =>
    obtain ⟨hmem, hbound⟩ := h
    have hmax := Requirement.toLex_higher k v
    constructor
    · rcases le_total (toLex v) (toLex k) with hk | hv
      · have heq : Requirement.higher (some k) v = k := toLex_inj.mp (hmax.trans (max_eq_left hk))
        rw [heq]
        exact List.mem_append_left _ hmem
      · have heq : Requirement.higher (some k) v = v := toLex_inj.mp (hmax.trans (max_eq_right hv))
        rw [heq]
        simp
    · intro w hw
      rw [hmax]
      rcases List.mem_append.mp hw with hw | hw
      · exact (hbound w hw).trans (le_max_left _ _)
      · obtain rfl : w = v := by simpa using hw
        exact le_max_right _ _

/-! ### Facts -/

/-- The pair of a version fact. -/
def Fact.pair? : Fact → Option (Nat × Nat)
  | .version t => Version.pair? t
  | _ => none

/-- The first two numbers of the version that a comment asks for. -/
def Requires.pair? (req : Requires) : Option (Nat × Nat) := req.version.bind Version.pair?

namespace Requires

theorem version_mem_facts (req : Requires) (t : Text) :
    .version t ∈ req.facts ↔ req.version = some t := by
  simp [facts]

theorem module_mem_facts (req : Requires) (spec : ModuleSpec) :
    .module spec ∈ req.facts ↔ spec ∈ req.modules := by
  simp [facts]

theorem elevation_mem_facts (req : Requires) :
    .elevation ∈ req.facts ↔ req.runAsAdmin = true := by
  simp [facts]

theorem filterMap_facts (req : Requires) :
    req.facts.filterMap Fact.pair? = req.pair?.toList := by
  have hassemblies : (if req.assemblies.isEmpty then [] else [Fact.legacyAssembly]).filterMap
      Fact.pair? = [] := by split <;> rfl
  have heditions : (if req.editions.isEmpty then [] else [Fact.editions req.editions]).filterMap
      Fact.pair? = [] := by split <;> rfl
  have hmodules : (req.modules.map Fact.module).filterMap Fact.pair? = [] := by
    simp [Fact.pair?]
  have helevation : (if req.runAsAdmin then [Fact.elevation] else []).filterMap
      Fact.pair? = [] := by split <;> rfl
  simp only [facts, List.filterMap_append, hassemblies, heditions, hmodules, helevation,
    List.nil_append, List.append_nil, pair?]
  rcases req.version with _ | t
  · rfl
  · rcases hpair : Version.pair? t with _ | p <;> simp [Fact.pair?, hpair]

end Requires

/-! ### One fact -/

namespace Requirement

/-- What is merged asks for what the facts ask for together. -/
structure Conjoins (r : Requirement) (fs : List Fact) : Prop where
  readable : ∀ t, .version t ∈ fs → (Version.pair? t).isSome = true
  highest : IsHighest r.version (fs.filterMap Fact.pair?)
  elevation : r.elevation = true ↔ .elevation ∈ fs
  constrained : ∀ key, r.modules.contains key = true ↔
    ∃ spec, .module spec ∈ fs ∧ Text.fold spec.name = key
  checked : ∀ spec, .module spec ∈ fs → spec.checkVersions = .ok ()
  admits : ∀ key c, r.modules.get? key = some c → ∀ v, c.Admits v ↔
    ∀ spec, .module spec ∈ fs → Text.fold spec.name = key → spec.Admits v
  apart : ∀ key c, r.modules.get? key = some c → c.IsApart

theorem conjoins_empty : ({} : Requirement).Conjoins [] where
  readable := nofun
  highest := rfl
  elevation := by simp
  constrained := by intro key; simp [Table.contains]
  checked := nofun
  admits := by intro key c hc; cases hc
  apart := by intro key c hc; cases hc

/-- A fact that touches neither the version, the modules nor the elevation. -/
theorem Conjoins.of_same {r r' : Requirement} {fs : List Fact} {f : Fact}
    (h : r.Conjoins fs) (hversion : r'.version = r.version) (hmodules : r'.modules = r.modules)
    (helevation : r'.elevation = (r.elevation || f = .elevation))
    (hf : ∀ t, f ≠ .version t) (hspec : ∀ spec, f ≠ .module spec) :
    r'.Conjoins (fs ++ [f]) := by
  have hold : ∀ t, .version t ∈ fs ++ [f] ↔ .version t ∈ fs := by
    intro t
    simp [(hf t).symm]
  have holdSpec : ∀ spec, .module spec ∈ fs ++ [f] ↔ .module spec ∈ fs := by
    intro spec
    simp [(hspec spec).symm]
  have hpair : f.pair? = none := by
    cases f with
    | version t => exact absurd rfl (hf t)
    | _ => rfl
  constructor
  · intro t ht
    exact h.readable t ((hold t).mp ht)
  · simpa [hversion, hpair] using h.highest
  · rw [helevation, Bool.or_eq_true, h.elevation]
    simp [eq_comm]
  · intro key
    simp only [hmodules, holdSpec]
    exact h.constrained key
  · intro spec hmem
    exact h.checked spec ((holdSpec spec).mp hmem)
  · intro key c hc v
    rw [hmodules] at hc
    simp only [holdSpec]
    exact h.admits key c hc v
  · intro key c hc
    rw [hmodules] at hc
    exact h.apart key c hc

theorem Conjoins.version {r : Requirement} {fs : List Fact} (h : r.Conjoins fs) {t : Text}
    {v : List Nat} (ht : Version.read? t = .ok (some v)) :
    ({ r with version := some (higher r.version (majorMinor v)) } : Requirement).Conjoins
      (fs ++ [.version t]) := by
  have hpair : Version.pair? t = some (majorMinor v) := by simp [Version.pair?, ht]
  constructor
  · intro u hu
    rcases List.mem_append.mp hu with hu | hu
    · exact h.readable u hu
    · obtain rfl : u = t := by simpa using hu
      simp [hpair]
  · have hlist : (fs ++ [Fact.version t]).filterMap Fact.pair? =
        fs.filterMap Fact.pair? ++ [majorMinor v] := by
      simp [Fact.pair?, hpair]
    rw [hlist]
    exact h.highest.higher (majorMinor v)
  · simpa using h.elevation
  · intro key
    simpa using h.constrained key
  · intro spec hmem
    exact h.checked spec (by simpa using hmem)
  · intro key c hc w
    simpa using h.admits key c hc w
  · exact h.apart

/-- The bare name, where nothing is kept, stands for no specification. -/
theorem Conjoins.admits_getD {r : Requirement} {fs : List Fact} (h : r.Conjoins fs) (name : Text)
    (v : List Nat) : ((r.modules.get? (Text.fold name)).getD { name := name }).Admits v ↔
      ∀ s, .module s ∈ fs → Text.fold s.name = Text.fold name → s.Admits v := by
  rcases hget : r.modules.get? (Text.fold name) with _ | kept
  · have hnone : ∀ s, Fact.module s ∈ fs → Text.fold s.name ≠ Text.fold name := by
      intro s hs hfold
      have hin := (h.constrained _).mpr ⟨s, hs, hfold⟩
      simp [Table.contains, hget] at hin
    constructor
    · intro _ s hs hfold
      exact absurd hfold (hnone s hs)
    · intro _
      exact ModuleSpec.admits_plain name v
  · exact h.admits _ kept hget v

theorem Conjoins.isApart_getD {r : Requirement} {fs : List Fact} (h : r.Conjoins fs)
    (name : Text) : ((r.modules.get? (Text.fold name)).getD { name := name }).IsApart := by
  rcases hget : r.modules.get? (Text.fold name) with _ | kept
  · exact ModuleSpec.isApart_plain name
  · exact h.apart _ kept hget

theorem Conjoins.module {r : Requirement} {fs : List Fact} (h : r.Conjoins fs)
    {spec c' : ModuleSpec}
    (ht : ((r.modules.get? (Text.fold spec.name)).getD { name := spec.name }).tighten spec
      = .ok c') :
    ({ r with modules := r.modules.insert (Text.fold spec.name) c' } : Requirement).Conjoins
      (fs ++ [.module spec]) := by
  have hmem : ∀ s, .module s ∈ fs ++ [Fact.module spec] ↔ .module s ∈ fs ∨ s = spec := by
    intro s
    simp
  constructor
  · intro t ht
    exact h.readable t (by simpa using ht)
  · have hpair : (Fact.module spec).pair? = none := rfl
    simpa [hpair] using h.highest
  · simpa using h.elevation
  · intro key
    have hkey : (r.modules.insert (Text.fold spec.name) c').contains key = true ↔
        key = Text.fold spec.name ∨ r.modules.contains key = true := by
      by_cases hk : key = Text.fold spec.name <;> simp [Table.contains, hk]
    simp only [hkey, h.constrained key, hmem]
    constructor
    · rintro (rfl | ⟨s, hs, rfl⟩)
      · exact ⟨spec, .inr rfl, rfl⟩
      · exact ⟨s, .inl hs, rfl⟩
    · rintro ⟨s, hs | rfl, rfl⟩
      · exact .inr ⟨s, hs, rfl⟩
      · exact .inl rfl
  · intro s hs
    rcases (hmem s).mp hs with hs | rfl
    · exact h.checked s hs
    · exact (ModuleSpec.tighten_eq_ok.mp ht).1
  · intro key c hc v
    simp only [Table.get?_insert] at hc
    split at hc
    · next hk =>
      obtain rfl : c' = c := Option.some.inj hc
      rw [ModuleSpec.admits_tighten ht v, h.admits_getD, hk]
      constructor
      · rintro ⟨hold, hspec⟩ s hs hfold
        rcases (hmem s).mp hs with hs | rfl
        · exact hold s hs hfold
        · exact hspec
      · intro hall
        refine ⟨?_, hall spec ((hmem spec).mpr (.inr rfl)) rfl⟩
        intro s hs hfold
        exact hall s ((hmem s).mpr (.inl hs)) hfold
    · next hk =>
      rw [h.admits key c hc v]
      constructor
      · intro hold s hs hfold
        rcases (hmem s).mp hs with hs | rfl
        · exact hold s hs hfold
        · exact absurd hfold.symm hk
      · intro hall s hs hfold
        exact hall s ((hmem s).mpr (.inl hs)) hfold
  · intro key c hc
    simp only [Table.get?_insert] at hc
    split at hc
    · obtain rfl : c' = c := Option.some.inj hc
      exact ModuleSpec.isApart_tighten (h.isApart_getD spec.name) ht
    · exact h.apart key c hc

/-- Every fact that is taken in keeps the conjunction. -/
theorem Conjoins.require {r r' : Requirement} {fs : List Fact} {f : Fact} (h : r.Conjoins fs)
    (hr : r.require f = .ok r') : r'.Conjoins (fs ++ [f]) := by
  cases f with
  | legacyAssembly => cases hr
  | version t =>
    simp only [Requirement.require] at hr
    rcases hread : Version.read? t with e | v
    · simp [hread] at hr
    · rcases v with _ | v
      · simp [hread] at hr
      · obtain rfl : _ = r' := by simpa [hread] using hr
        exact h.version hread
  | editions names =>
    simp only [Requirement.require] at hr
    rcases hkept : r.editions with _ | kept
    · obtain rfl : _ = r' := by simpa [hkept] using hr
      exact h.of_same rfl rfl (by simp) (by simp) (by simp)
    · by_cases hsame : kept = editionSet names
      · obtain rfl : r = r' := by simpa [hkept, hsame] using hr
        exact h.of_same rfl rfl (by simp) (by simp) (by simp)
      · simp [hkept, hsame] at hr
  | module spec =>
    simp only [Requirement.require] at hr
    rcases ht : ((r.modules.get? (Text.fold spec.name)).getD { name := spec.name }).tighten spec
      with e | c
    · simp [ht] at hr
    · obtain rfl : _ = r' := by simpa [ht] using hr
      exact h.module ht
  | elevation =>
    obtain rfl : _ = r' := Except.ok.inj hr
    exact h.of_same rfl rfl (by simp) (by simp) (by simp)

/-! ### Runs -/

/-- A run that takes in every fact keeps what each step keeps, with the facts taken in
    behind those that were there. -/
theorem requireAll_induction {P : Requirement → List Fact → Prop}
    (step : ∀ r r' fs f, P r fs → r.require f = .ok r' → P r' (fs ++ [f]))
    {gs : List Fact} {r r' : Requirement} {fs : List Fact} (h : P r fs)
    (hrun : r.requireAll gs = (r', none)) : P r' (fs ++ gs) := by
  induction gs generalizing r fs with
  | nil =>
    obtain ⟨rfl, -⟩ := Prod.mk.inj hrun
    simpa using h
  | cons f gs ih =>
    simp only [requireAll] at hrun
    rcases hr : r.require f with e | r₁
    · simp [hr] at hrun
    · rw [hr] at hrun
      have hnext := ih (step r r₁ fs f h hr) hrun
      simpa using hnext

theorem requireAll_append (r : Requirement) (fs gs : List Fact) :
    r.requireAll (fs ++ gs) =
      match r.requireAll fs with
      | (r', none) => r'.requireAll gs
      | (r', some e) => (r', some e) := by
  induction fs generalizing r with
  | nil => rfl
  | cons f fs ih =>
    simp only [List.cons_append, requireAll]
    cases r.require f with
    | error e => rfl
    | ok r' => exact ih r'

/-- Takes in requirement comments up to the first one refused. -/
def addAll (r : Requirement) : List Requires → Requirement × Option Rejection
  | [] => (r, none)
  | req :: reqs =>
    match r.add req with
    | (r', none) => r'.addAll reqs
    | (r', some e) => (r', some e)

/-- Comments are taken in as the row of all their facts. -/
theorem addAll_eq_requireAll (r : Requirement) (reqs : List Requires) :
    r.addAll reqs = r.requireAll (reqs.flatMap Requires.facts) := by
  induction reqs generalizing r with
  | nil => rfl
  | cons req reqs ih =>
    simp only [addAll, add, List.flatMap_cons, requireAll_append]
    rcases r.requireAll req.facts with ⟨r', _ | e⟩
    · exact ih r'
    · rfl

/-- **The merge of requirement comments is their conjunction.**  When every comment of a
    sequence is taken in, the merged version is the highest pair given, elevation is
    required exactly if some comment requires it, and a module is constrained exactly if a
    comment names it, under any casing.  A version meets the merged constraint of a module
    exactly if it meets every specification given for it, all of them readable, and no
    merged constraint has both an exact version and a bound. -/
theorem addAll_conjunction {reqs : List Requires} {r : Requirement}
    (h : ({} : Requirement).addAll reqs = (r, none)) :
    (∀ req ∈ reqs, ∀ t, req.version = some t → (Version.pair? t).isSome = true) ∧
    (∀ v, r.version = some v ↔
      v ∈ reqs.filterMap Requires.pair? ∧
        ∀ w ∈ reqs.filterMap Requires.pair?, toLex w ≤ toLex v) ∧
    (r.elevation = true ↔ ∃ req ∈ reqs, req.runAsAdmin = true) ∧
    (∀ req ∈ reqs, ∀ spec ∈ req.modules, spec.checkVersions = .ok ()) ∧
    (∀ key, r.modules.contains key = true ↔
      ∃ req ∈ reqs, ∃ spec ∈ req.modules, Text.fold spec.name = key) ∧
    (∀ key c, r.modules.get? key = some c →
      (∀ v, c.Admits v ↔
        ∀ req ∈ reqs, ∀ spec ∈ req.modules, Text.fold spec.name = key → spec.Admits v) ∧
      (c.exactVersion.isSome = true → c.minVersion = none ∧ c.maxVersion = none)) := by
  rw [addAll_eq_requireAll] at h
  have hall : r.Conjoins (reqs.flatMap Requires.facts) :=
    requireAll_induction (fun _ _ _ _ hc hr => hc.require hr) conjoins_empty h
  have hversions : (reqs.flatMap Requires.facts).filterMap Fact.pair? =
      reqs.filterMap Requires.pair? := by
    simp only [List.filterMap_flatMap, Requires.filterMap_facts]
    exact (List.filterMap_eq_flatMap_toList ..).symm
  have hspecs : ∀ spec, .module spec ∈ reqs.flatMap Requires.facts ↔
      ∃ req ∈ reqs, spec ∈ req.modules := by
    intro spec
    simp only [List.mem_flatMap, Requires.module_mem_facts]
  refine ⟨?_, ?_, ?_, ?_, ?_, ?_⟩
  · intro req hreq t ht
    refine hall.readable t (List.mem_flatMap.mpr ⟨req, hreq, ?_⟩)
    exact (req.version_mem_facts t).mpr ht
  · intro v
    rw [hall.highest.eq_some_iff, hversions]
  · rw [hall.elevation, List.mem_flatMap]
    simp only [Requires.elevation_mem_facts]
  · intro req hreq spec hspec
    exact hall.checked spec ((hspecs spec).mpr ⟨req, hreq, hspec⟩)
  · intro key
    rw [hall.constrained key]
    constructor
    · rintro ⟨spec, hmem, hfold⟩
      obtain ⟨req, hreq, hspec⟩ := (hspecs spec).mp hmem
      exact ⟨req, hreq, spec, hspec, hfold⟩
    · rintro ⟨req, hreq, spec, hspec, hfold⟩
      exact ⟨spec, (hspecs spec).mpr ⟨req, hreq, hspec⟩, hfold⟩
  · intro key c hc
    refine ⟨?_, hall.apart key c hc⟩
    intro v
    rw [hall.admits key c hc v]
    constructor
    · intro hfacts req hreq spec hspec hfold
      exact hfacts spec ((hspecs spec).mpr ⟨req, hreq, hspec⟩) hfold
    · intro hgiven spec hmem hfold
      obtain ⟨req, hreq, hspec⟩ := (hspecs spec).mp hmem
      exact hgiven req hreq spec hspec hfold

/-- Three comments that name one module in three casings, twice in the first of them, and
    give one lower bound in two spellings. -/
theorem addAll_conjunction_three_casings :
    let reqs : List Requires :=
      [{ version := some "5.1".toList, runAsAdmin := true,
         modules := [{ name := "Az".toList, minVersion := some "1.2".toList },
                     { name := "AZ".toList, maxVersion := some "3".toList }] },
       { version := some "7".toList,
         modules := [{ name := "az".toList, minVersion := some "1.02.0".toList },
                     { name := "Pester".toList, exactVersion := some "5.0".toList }] },
       { version := some "7.0.9".toList,
         modules := [{ name := "PESTER".toList, exactVersion := some "5".toList }] }]
    ∃ r, ({} : Requirement).addAll reqs = (r, none) ∧
      r.version = some (7, 0) ∧ r.elevation = true ∧
      ∃ c, r.modules.get? "az".toList = some c ∧ ¬ c.Admits [1, 1, 9] := by
  intro reqs
  have hrun : (({} : Requirement).addAll reqs).2 = none := by decide +kernel
  have hpair : reqs.filterMap Requires.pair? = [(5, 1), (7, 0), (7, 0)] := by decide +kernel
  have hall : ({} : Requirement).addAll reqs = ((({} : Requirement).addAll reqs).1, none) :=
    Prod.ext rfl hrun
  obtain ⟨-, hversion, helevation, -, hconstrained, hadmits⟩ := addAll_conjunction hall
  refine ⟨_, hall, (hversion _).mpr ?_, helevation.mpr ⟨_, List.mem_cons_self .., rfl⟩, ?_⟩
  · rw [hpair]
    decide
  · have hin := (hconstrained "az".toList).mpr
      ⟨_, List.mem_cons_self .., _, List.mem_cons_self .., by decide +kernel⟩
    obtain ⟨c, hc⟩ := Option.isSome_iff_exists.mp hin
    refine ⟨c, hc, ?_⟩
    intro hadmit
    have hfirst := ((hadmits _ c hc).1 _).mp hadmit _ (List.mem_cons_self ..) _
      (List.mem_cons_self ..) (by decide +kernel)
    exact absurd (hfirst.atLeast _ rfl) (by decide +kernel)

end Requirement
end ScriptModule
