/-
  ScriptModule/Proofs/RefusedRequirement.lean
  ===========================================
  **Requirements that are refused.**  A requirement comment is taken in fact by fact: the
  version, the editions, the modules as they are listed.  At a fact that is refused the merge
  keeps what the facts in front of it made, as if the comment had ended there; the refused
  fact and what stands behind it leave no trace.
-/
import ScriptModule.Proofs.Conjunction

namespace ScriptModule

/-! ### Comments cut off at a fact -/

/-- How a requirement comment is cut in front of one of its facts: what is left of it, and
    the fact.  Assemblies come first, then the version, the editions, and each module. -/
inductive Requires.IsCut (req : Requires) : Requires → Fact → Prop
  | assemblies : req.assemblies ≠ [] → IsCut req {} .legacyAssembly
  | version {t : Text} : req.assemblies = [] → req.version = some t → IsCut req {} (.version t)
  | editions : req.assemblies = [] → req.editions ≠ [] →
      IsCut req { version := req.version } (.editions req.editions)
  | module {front back : List ModuleSpec} {spec : ModuleSpec} : req.assemblies = [] →
      req.modules = front ++ spec :: back →
      IsCut req { version := req.version, editions := req.editions, modules := front }
        (.module spec)

theorem mem_of_cut_append {α : Type} {xs ys front back : List α} {a : α}
    (h : xs ++ ys = front ++ a :: back) :
    (∃ more, xs = front ++ a :: more) ∨ ∃ more, front = xs ++ more ∧ ys = more ++ a :: back := by
  rcases List.append_eq_append_iff.mp h with ⟨more, rfl, hys⟩ | ⟨more, rfl, hmore⟩
  · exact .inr ⟨more, rfl, hys⟩
  · cases more with
    | nil => exact .inr ⟨[], by simp, by simpa using hmore.symm⟩
    | cons b more =>
      obtain ⟨rfl, -⟩ := List.cons.inj hmore
      exact .inl ⟨more, rfl⟩

theorem eq_nil_of_singleton {α : Type} {front more : List α} {a b : α}
    (h : [b] = front ++ a :: more) : front = [] ∧ a = b := by
  cases front with
  | nil => exact ⟨rfl, (List.cons.inj h).1.symm⟩
  | cons c front => simp at h

theorem eq_nil_of_toList {α : Type} {o : Option α} {front more : List α} {a : α}
    (h : o.toList = front ++ a :: more) : front = [] ∧ o = some a := by
  cases o with
  | none => simp at h
  | some b =>
    obtain ⟨rfl, rfl⟩ := eq_nil_of_singleton h
    exact ⟨rfl, rfl⟩

/-- In front of a fact that can be refused stand the facts of the comment that is cut there,
    if no assembly was asked for. -/
theorem Requires.exists_isCut {req : Requires} {front back : List Fact} {f : Fact}
    (h : req.facts = front ++ f :: back) (hassembly : .legacyAssembly ∉ front)
    (helevation : f ≠ .elevation) : ∃ done, req.IsCut done f ∧ done.facts = front := by
  by_cases hempty : req.assemblies = []
  · rw [facts, hempty, List.isEmpty_nil, if_pos rfl, List.nil_append] at h
    rcases mem_of_cut_append h with ⟨more, h⟩ | ⟨more, -, hlast⟩
    · rcases mem_of_cut_append h with ⟨more, h⟩ | ⟨more, rfl, hmodules⟩
      · rcases mem_of_cut_append h with ⟨more, hversion⟩ | ⟨more, rfl, heditions⟩
        · obtain ⟨rfl, hf⟩ := eq_nil_of_toList hversion
          obtain ⟨t, ht, rfl⟩ := Option.map_eq_some_iff.mp hf
          exact ⟨{}, .version hempty ht, rfl⟩
        · split at heditions
          · simp at heditions
          · next hsome =>
            obtain ⟨rfl, rfl⟩ := eq_nil_of_singleton heditions
            rw [List.isEmpty_iff] at hsome
            exact ⟨_, .editions hempty hsome, by simp [facts]⟩
      · obtain ⟨specs, rest, hsplit, rfl, hrest⟩ := List.map_eq_append_iff.mp hmodules
        obtain ⟨spec, behind, rfl, rfl, -⟩ := List.map_eq_cons_iff.mp hrest
        exact ⟨_, .module hempty hsplit, by simp [facts]⟩
    · split at hlast
      · exact absurd (eq_nil_of_singleton hlast).2 helevation
      · simp at hlast
  · rw [facts, if_neg (by rwa [List.isEmpty_iff])] at h
    cases front with
    | nil =>
      obtain rfl : Fact.legacyAssembly = f := (List.cons.inj h).1
      exact ⟨{}, .assemblies hempty, rfl⟩
    | cons g front =>
      obtain rfl : Fact.legacyAssembly = g := (List.cons.inj h).1
      exact absurd List.mem_cons_self hassembly

/-! ### One fact -/

/-- The keys of a table behind a write to a key. -/
def keysWith {κ : Type} [DecidableEq κ] (keys : List κ) (key : κ) : List κ :=
  if key ∈ keys then keys else keys ++ [key]

/-- The key under which a fact is kept, if it is about a module. -/
def Fact.moduleKey? : Fact → Option Text
  | .module spec => some (Text.fold spec.name)
  | _ => none

theorem Requires.IsCut.elevation_not_mem {req done : Requires} {f : Fact}
    (h : req.IsCut done f) : .elevation ∉ done.facts := by
  cases h <;> simp [facts]

theorem Requires.moduleKeys (req : Requires) : req.facts.filterMap Fact.moduleKey? =
    req.modules.map fun spec => Text.fold spec.name := by
  have hmodules : (req.modules.map Fact.module).filterMap Fact.moduleKey? =
      req.modules.map fun spec => Text.fold spec.name := by
    rw [List.filterMap_map]
    exact congrFun List.filterMap_eq_map _
  have hversion : (req.version.map Fact.version).toList.filterMap Fact.moduleKey? = [] := by
    cases req.version <;> rfl
  rw [facts, List.filterMap_append, List.filterMap_append, List.filterMap_append,
    List.filterMap_append, hmodules, hversion]
  cases req.assemblies.isEmpty <;> cases req.editions.isEmpty <;> cases req.runAsAdmin <;>
    simp [Fact.moduleKey?, List.filterMap_cons]

namespace Requirement

/-- A fact that is taken in writes at most the module that it names, and the elevation only
    if it asks for it. -/
structure Frame (r r' : Requirement) (keys : List Text) : Prop where
  elevation : r'.elevation = r.elevation
  modules : ∀ key, key ∉ keys → r'.modules.get? key = r.modules.get? key
  keys : r'.modules.keys = keys.foldl keysWith r.modules.keys

theorem frame_require {r r' : Requirement} {f : Fact} (h : r.require f = .ok r')
    (hf : f ≠ .elevation) : r.Frame r' f.moduleKey?.toList := by
  cases f with
  | legacyAssembly => cases h
  | version t =>
    simp only [require] at h
    split at h
    · cases h
    · cases h
    · cases h
      exact ⟨rfl, fun _ _ => rfl, rfl⟩
  | editions names =>
    simp only [require] at h
    split at h
    · cases h
      exact ⟨rfl, fun _ _ => rfl, rfl⟩
    · split at h
      · cases h
        exact ⟨rfl, fun _ _ => rfl, rfl⟩
      · cases h
  | module spec =>
    simp only [require] at h
    split at h
    · cases h
    · cases h
      refine ⟨rfl, ?_, ?_⟩
      · intro key hkey
        have hne : key ≠ Text.fold spec.name := by simpa [Fact.moduleKey?] using hkey
        simp [hne]
      · have hkeys := Table.keys_insert r.modules (Text.fold spec.name)
        simp only [Fact.moduleKey?, Option.toList_some, List.foldl_cons, List.foldl_nil, keysWith,
          hkeys, Table.mem_keys_iff]
  | elevation => exact absurd rfl hf

theorem frame_requireAll {fs : List Fact} {r r' : Requirement}
    (h : r.requireAll fs = (r', none)) (hfs : .elevation ∉ fs) :
    r.Frame r' (fs.filterMap Fact.moduleKey?) := by
  induction fs generalizing r with
  | nil =>
    cases h
    exact ⟨rfl, fun _ _ => rfl, rfl⟩
  | cons f fs ih =>
    rw [List.mem_cons, not_or] at hfs
    simp only [requireAll] at h
    split at h
    · cases h
    · next r₁ hr =>
      have hone := frame_require hr (Ne.symm hfs.1)
      have hmore := ih h hfs.2
      have hkeys : (f :: fs).filterMap Fact.moduleKey? =
          f.moduleKey?.toList ++ fs.filterMap Fact.moduleKey? := by
        cases hkey : f.moduleKey? <;> simp [hkey]
      rw [hkeys]
      refine ⟨hmore.elevation.trans hone.elevation, ?_, ?_⟩
      · intro key hkey
        rw [List.mem_append, not_or] at hkey
        exact (hmore.modules key hkey.2).trans (hone.modules key hkey.1)
      · rw [hmore.keys, hone.keys, List.foldl_append]

/-! ### A refused comment -/

/-- A run that is refused has taken in all facts in front of the one refused. -/
theorem requireAll_eq_error {fs : List Fact} {r r' : Requirement} {e : Rejection} :
    r.requireAll fs = (r', some e) ↔ ∃ front f back, fs = front ++ f :: back ∧
      r.requireAll front = (r', none) ∧ r'.require f = .error e := by
  constructor
  · intro h
    induction fs generalizing r with
    | nil => cases h
    | cons f fs ih =>
      simp only [requireAll] at h
      split at h
      · next e' hr =>
        cases h
        exact ⟨[], f, fs, rfl, rfl, hr⟩
      · next r₁ hr =>
        obtain ⟨front, g, back, rfl, hfront, hg⟩ := ih h
        refine ⟨f :: front, g, back, rfl, ?_, hg⟩
        simp only [requireAll, hr, hfront]
  · rintro ⟨front, f, back, rfl, hfront, hf⟩
    rw [requireAll_append, hfront]
    simp only [requireAll, hf]

/-- **A refused comment leaves what stands in front of the refused fact.**  The requirement
    is then the one that the comment, cut off in front of the fact that is refused, is merged
    into without a refusal.  The elevation is as before, a module that the cut comment does
    not name is kept as it was, and new modules stand behind the others in the order in which
    the cut comment names them. -/
theorem add_refused {r r' : Requirement} {req : Requires} {e : Rejection}
    (h : r.add req = (r', some e)) :
    ∃ done f, req.IsCut done f ∧ r.add done = (r', none) ∧ r'.require f = .error e ∧
      r'.elevation = r.elevation ∧
      (∀ key, (∀ spec ∈ done.modules, Text.fold spec.name ≠ key) →
        r'.modules.get? key = r.modules.get? key) ∧
      r'.modules.keys =
        (done.modules.map fun spec => Text.fold spec.name).foldl keysWith r.modules.keys := by
  obtain ⟨front, f, back, hfacts, hfront, hf⟩ := requireAll_eq_error.mp h
  have hassembly : Fact.legacyAssembly ∉ front := by
    intro hmem
    obtain ⟨gs, hs, rfl⟩ := List.append_of_mem hmem
    rw [requireAll_append] at hfront
    split at hfront
    · cases hfront
    · cases hfront
  have helevation : f ≠ .elevation := by
    rintro rfl
    cases hf
  obtain ⟨done, hcut, hdone⟩ := Requires.exists_isCut hfacts hassembly helevation
  rw [← hdone] at hfront
  have hframe := frame_requireAll hfront hcut.elevation_not_mem
  rw [done.moduleKeys] at hframe
  refine ⟨done, f, hcut, hfront, hf, hframe.elevation, ?_, hframe.keys⟩
  intro key hkey
  apply hframe.modules
  intro hmem
  obtain ⟨spec, hspec, heq⟩ := List.mem_map.mp hmem
  exact hkey spec hspec heq

/-- The second of three modules has a new identity and then a bound against its exact version;
    of the comment the version, the editions and the first module are kept. -/
theorem add_refused_second_module :
    let pinned : ModuleSpec := { name := "Az".toList, exactVersion := some "2.0".toList }
    let r : Requirement := { modules := Table.empty.insert "az".toList pinned }
    let req : Requires := {
      version := some "7.1".toList, editions := ["core".toList], runAsAdmin := true
      modules := [{ name := "Pester".toList, minVersion := some "5.0".toList },
        { name := "AZ".toList, guid := some "c".toList, minVersion := some "1.0".toList },
        { name := "Other".toList }] }
    ∃ r' e done f, r.add req = (r', some e) ∧ req.IsCut done f ∧ r.add done = (r', none) ∧
      r'.version = some (7, 1) ∧ r'.editions = some ["Core".toList] ∧ r'.elevation = false ∧
      r'.modules.keys = ["az".toList, "pester".toList] ∧
      r'.modules.get? "az".toList = some pinned := by
  intro pinned r req
  have hrun : (r.add req).2.isSome = true := by decide +kernel
  obtain ⟨e, he⟩ := Option.isSome_iff_exists.mp hrun
  have hadd : r.add req = ((r.add req).1, some e) := Prod.ext rfl he
  obtain ⟨done, f, hcut, hdone, -, helevation, -, -⟩ := add_refused hadd
  refine ⟨_, e, done, f, hadd, hcut, hdone, ?_, ?_, helevation, ?_, ?_⟩
  · decide +kernel
  · decide +kernel
  · decide +kernel
  · decide +kernel

end Requirement
end ScriptModule
