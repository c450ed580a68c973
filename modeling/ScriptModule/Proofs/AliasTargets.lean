/-
  ScriptModule/Proofs/AliasTargets.lean
  =====================================
  **Which declaration of an alias counts.**  Aliases are kept under their exact names and
  found by any spelling, and the first row found counts.  So one spelling of a name counts:
  the one that the table has, or else the one that is declared first.  A later declaration
  of that spelling gives it a new target; a declaration in another spelling has no effect.
-/
import ScriptModule.CommandLine.Invocation
import ScriptModule.Proofs.TableRows

namespace ScriptModule.KnownAliases

/-! ### Declarations -/

/-- The name and the target that a text declares. -/
def readDeclaration (t : Text) : Text × Text :=
  match Text.cut? '=' t with
  | some (name, target) => (Text.trim name, Text.trim target)
  | none => (Text.trim t, [])

/-- The aliases that are known behind declarations. -/
def declareAll (known : KnownAliases) (ds : List (Text × Text)) : KnownAliases :=
  ds.foldl (fun k d => k.declare d.1 d.2) known

/-- The spelling of a name that counts. -/
def spelling? (known : KnownAliases) (ds : List (Text × Text)) (name : Text) : Option Text :=
  (known.keys ++ ds.map Prod.fst).find? (Text.sameName · name)

/-- The last target that an exact name was given. -/
def exactTarget? (known : KnownAliases) (ds : List (Text × Text)) (name : Text) : Option Text :=
  ((ds.reverse.find? fun d => d.1 = name).map Prod.snd).or (known.get? name)

/-- The last declaration of a name in any spelling. -/
def latest? (ds : List (Text × Text)) (name : Text) : Option (Text × Text) :=
  ds.reverse.find? fun d => Text.sameName d.1 name

/-- What a name stands for if its last declaration counts, in whatever spelling. -/
def latestTarget? (known : KnownAliases) (ds : List (Text × Text)) (name : Text) : Option Text :=
  ((latest? ds name).map Prod.snd).or (known.target? name)

theorem foldl_declareText (given : List Text) (known : KnownAliases) :
    given.foldl declareText known = known.declareAll (given.map readDeclaration) := by
  have hstep : ∀ (k : KnownAliases) (t : Text),
      k.declareText t = k.declare (readDeclaration t).1 (readDeclaration t).2 := by
    intro k t
    rw [declareText, readDeclaration]
    cases Text.cut? '=' t <;> rfl
  rw [declareAll, List.foldl_map]
  exact congrArg (fun f => given.foldl f known) (funext fun k => funext (hstep k))

/-! ### The table behind declarations -/

theorem get?_declareAll (known : KnownAliases) (ds : List (Text × Text)) (name : Text) :
    (known.declareAll ds).get? name = exactTarget? known ds name :=
  Table.get?_foldl_insert Prod.fst Prod.snd ds known name

/-- Of the names of a table and of later declarations, the first one of a class is the
    same in the table that has the declarations. -/
theorem find?_keys_declareAll (known : KnownAliases) (ds : List (Text × Text))
    (p : Text → Bool) :
    (known.declareAll ds).keys.find? p = (known.keys ++ ds.map Prod.fst).find? p := by
  induction ds generalizing known with
  | nil => rw [List.map_nil, List.append_nil]; rfl
  | cons d ds ih =>
    refine (ih (known.declare d.1 d.2)).trans ?_
    have hkeys : (known.declare d.1 d.2).keys = _ := Table.keys_insert known d.1 d.2
    rw [hkeys, List.map_cons, List.find?_append, List.find?_append, List.find?_cons]
    split
    · next hold =>
      -- a name that is known already is found in the table, if it is of the class
      by_cases hp : p d.1 = true
      · have hmem := (Table.mem_keys_iff known d.1).mpr hold
        have hfound : (known.keys.find? p).isSome := List.find?_isSome.mpr ⟨d.1, hmem, hp⟩
        obtain ⟨k, hk⟩ := Option.isSome_iff_exists.mp hfound
        rw [hk]
        rfl
      · rw [Bool.eq_false_iff.mpr hp]
    · rw [List.find?_append, List.find?_singleton, Option.or_assoc]
      cases p d.1 <;> rfl

/-- A name stands for the target of the first key that is a spelling of it. -/
theorem target?_eq (known : KnownAliases) (name : Text) :
    known.target? name = (known.keys.find? (Text.sameName · name)).bind known.get? := by
  rw [target?, Table.keys, List.find?_map]
  change _ = ((known.rows.find? fun r => Text.sameName r.1 name).map Prod.fst).bind known.get?
  cases hfind : known.rows.find? fun r => Text.sameName r.1 name with
  | none => rfl
  | some r =>
    have hrow : known.get? r.1 = some r.2 :=
      Table.get?_of_mem_rows (List.mem_of_find?_eq_some hfind)
    exact hrow.symm

theorem target?_declareAll (known : KnownAliases) (ds : List (Text × Text)) (name : Text) :
    (known.declareAll ds).target? name =
      (spelling? known ds name).bind (exactTarget? known ds) := by
  rw [target?_eq, find?_keys_declareAll, spelling?]
  exact congrArg (Option.bind _) (funext (get?_declareAll known ds))

/-! ### Declarations that count -/

/-- The last declaration of a name in any spelling is the last one of its own spelling. -/
theorem exactTarget?_of_latest? (known : KnownAliases) {ds : List (Text × Text)} {name : Text}
    {d : Text × Text} (h : latest? ds name = some d) : exactTarget? known ds d.1 = some d.2 := by
  obtain ⟨hname, later, before, hds, hlater⟩ := List.find?_eq_some_iff_append.mp h
  have hexact : ds.reverse.find? (fun e => e.1 = d.1) = some d := by
    rw [List.find?_eq_some_iff_append]
    refine ⟨by simp, later, before, hds, ?_⟩
    intro e he
    rw [Bool.not_eq_true', decide_eq_false_iff_not]
    intro hsame
    have hother := hlater e he
    rw [hsame, hname] at hother
    cases hother
  rw [exactTarget?, hexact]
  rfl

/-- A name that is declared in no spelling stands for what it stood for before. -/
theorem target?_of_undeclared {known : KnownAliases} {ds : List (Text × Text)} {name : Text}
    (h : latest? ds name = none) : (known.declareAll ds).target? name = known.target? name := by
  have hother : ∀ d ∈ ds, Text.sameName d.1 name = false := by simpa [latest?] using h
  have hdeclared : (ds.map Prod.fst).find? (Text.sameName · name) = none := by
    simpa using hother
  rw [target?_declareAll, target?_eq, spelling?, List.find?_append, hdeclared, Option.or_none]
  refine Option.bind_congr fun k hk => ?_
  have hexact : ds.reverse.find? (fun d => d.1 = k) = none := by
    rw [List.find?_eq_none]
    intro d hd hsame
    have hname := hother d (List.mem_reverse.mp hd)
    rw [of_decide_eq_true hsame, List.find?_some hk] at hname
    cases hname
  rw [exactTarget?, hexact]
  rfl

theorem find?_without {α : Type} {p : α → Bool} {before after : List α} {x : α}
    (h : (before ++ x :: after).find? p ≠ some x) :
    (before ++ x :: after).find? p = (before ++ after).find? p := by
  rw [List.find?_append, List.find?_cons] at h ⊢
  rw [List.find?_append]
  cases hfront : before.find? p with
  | some y => rfl
  | none =>
    rw [hfront] at h
    cases hx : p x with
    | true =>
      rw [hx] at h
      exact absurd rfl h
    | false => rfl

/-- A declaration in another spelling than the one that counts may be left out. -/
theorem target?_without {known : KnownAliases} {before after : List (Text × Text)}
    {d : Text × Text} {name : Text}
    (h : spelling? known (before ++ d :: after) name ≠ some d.1) :
    (known.declareAll (before ++ d :: after)).target? name =
      (known.declareAll (before ++ after)).target? name := by
  rw [target?_declareAll, target?_declareAll]
  have hspelling : spelling? known (before ++ d :: after) name =
      spelling? known (before ++ after) name := by
    unfold spelling? at h ⊢
    rw [List.map_append, List.map_cons, ← List.append_assoc] at h ⊢
    rw [find?_without h, List.map_append, List.append_assoc]
  rw [← hspelling]
  refine Option.bind_congr fun k hk => ?_
  have hother : d.1 ≠ k := by
    rintro rfl
    exact h hk
  simp [exactTarget?, List.find?_append, hother]

/-! ### Warnings -/

theorem shadowWarnings_eq_nil {known : KnownAliases} {sc : Script} {entry : Text}
    {as : List AliasDeclaration} :
    Script.shadowWarnings known sc entry as = [] ↔
      ∀ a ∈ as, ∀ t ∈ known.target? a.name, Text.sameName t entry = true := by
  rw [Script.shadowWarnings, List.filterMap_eq_nil_iff]
  refine forall₂_congr fun a _ => ?_
  cases known.target? a.name with
  | none => simp
  | some t => simp

theorem warnings_of_extract {known : KnownAliases} {sc : Script} {entry : Text} {e : EntryPoint}
    {ws : List Report} (h : sc.extract known entry = .ok (e, ws)) :
    ws = Script.shadowWarnings known sc entry e.aliases := by
  obtain ⟨i, ds, as, -, -, -, rfl, rfl⟩ := Script.extract_iff.mp h
  rfl

/-! ### All declarations -/

/-- A name stands for the last target given to the spelling that counts, or for its built-in
    target if it is declared in no spelling.  The last declaration of a name counts if it is
    in that spelling, and a declaration in any other one might as well be left out.  An entry
    point has no warnings exactly if what its aliases stand for, in the spellings that count,
    is the entry point itself. -/
theorem target?_declared (given : List Text) :
    let ds := given.map readDeclaration
    let known := given.foldl declareText builtin
    (∀ name, known.target? name =
      (spelling? builtin ds name).bind (exactTarget? builtin ds)) ∧
    (∀ name, latest? ds name = none → known.target? name = builtin.target? name) ∧
    (∀ name d, latest? ds name = some d → spelling? builtin ds name = some d.1 →
      known.target? name = some d.2) ∧
    (∀ name before d after, ds = before ++ d :: after →
      spelling? builtin ds name ≠ some d.1 →
      known.target? name = (builtin.declareAll (before ++ after)).target? name) ∧
    ∀ sc entry e ws, Script.extract known entry sc = .ok (e, ws) →
      (ws = [] ↔ ∀ a ∈ e.aliases,
        ∀ t ∈ (spelling? builtin ds a.name).bind (exactTarget? builtin ds),
          Text.sameName t entry = true) := by
  intro ds known
  have hknown : known = builtin.declareAll ds := foldl_declareText given builtin
  have htarget : ∀ name, known.target? name =
      (spelling? builtin ds name).bind (exactTarget? builtin ds) := by
    intro name
    rw [hknown, target?_declareAll]
  refine ⟨htarget, ?_, ?_, ?_, ?_⟩
  · intro name hnone
    rw [hknown, target?_of_undeclared hnone]
  · intro name d hlatest hspelling
    rw [htarget, hspelling]
    exact exactTarget?_of_latest? builtin hlatest
  · intro name before d after hds hspelling
    rw [hds] at hspelling
    rw [hknown, hds, target?_without hspelling]
  · intro sc entry e ws hextract
    rw [warnings_of_extract hextract, shadowWarnings_eq_nil]
    simp only [htarget]

/-- The built-in alias is declared twice in its own spelling, and in between in another one. -/
theorem target?_declared_twice :
    let given : List Text := ["ls=One".toList, "LS = Two".toList, " ls = Get-Foo ".toList]
    let ds := given.map readDeclaration
    let known := given.foldl declareText builtin
    latest? ds "gci".toList = none ∧ known.target? "gci".toList = builtin.target? "gci".toList ∧
    latest? ds "Ls".toList = some ("ls".toList, "Get-Foo".toList) ∧
    spelling? builtin ds "Ls".toList = some "ls".toList ∧
    known.target? "Ls".toList = some "Get-Foo".toList ∧
    known.target? "Ls".toList = (builtin.declareAll
      [("ls".toList, "One".toList), ("ls".toList, "Get-Foo".toList)]).target? "Ls".toList ∧
    ∃ sc e ws, Script.ofSource none "[Alias('LS')]\nparam()".toList = .ok sc ∧
      Script.extract known "Get-Foo".toList sc = .ok (e, ws) ∧
      e.aliases.map AliasDeclaration.name = ["LS".toList] ∧ ws = [] := by
  intro given ds known
  obtain ⟨-, hundeclared, hcounts, hidle, hwarnings⟩ := target?_declared given
  have hnone : latest? ds "gci".toList = none := by decide +kernel
  have hlatest : latest? ds "Ls".toList = some ("ls".toList, "Get-Foo".toList) := by
    decide +kernel
  have hspelling : spelling? builtin ds "Ls".toList = some "ls".toList := by decide +kernel
  have hdeclared : ds = [("ls".toList, "One".toList)] ++
      ("LS".toList, "Two".toList) :: [("ls".toList, "Get-Foo".toList)] := by decide +kernel
  have hother : spelling? builtin ds "Ls".toList ≠ some "LS".toList := by decide +kernel
  have hrun : ((Script.ofSource none "[Alias('LS')]\nparam()".toList).toOption.any fun sc =>
      (sc.extract known "Get-Foo".toList).toOption.any fun p =>
        p.1.aliases.map AliasDeclaration.name = ["LS".toList]) = true := by decide +kernel
  obtain ⟨sc, hsource, hrun⟩ := toOption_any.mp hrun
  obtain ⟨⟨e, ws⟩, hextract, hrun⟩ := toOption_any.mp hrun
  have haliases : e.aliases.map AliasDeclaration.name = ["LS".toList] := of_decide_eq_true hrun
  refine ⟨hnone, hundeclared _ hnone, hlatest, hspelling, hcounts _ _ hlatest hspelling,
    hidle _ _ _ _ hdeclared hother, sc, e, ws, hsource, hextract, haliases, ?_⟩
  rw [hwarnings sc _ e ws hextract]
  intro a ha t ht
  have hname : a.name = "LS".toList := by
    have hmem := List.mem_map_of_mem (f := AliasDeclaration.name) ha
    rw [haliases] at hmem
    exact List.mem_singleton.mp hmem
  have hstands : (spelling? builtin ds "LS".toList).bind (exactTarget? builtin ds) =
      some "Get-Foo".toList := by decide +kernel
  rw [hname] at ht
  cases hstands.symm.trans ht
  decide +kernel

/-- A built-in alias declared in capitals keeps its built-in target, and an entry point that
    it is declared for is warned about it. -/
theorem target?_other_spelling :
    (¬ ∀ (given : List Text) (name : Text), (given.foldl declareText builtin).target? name =
      latestTarget? builtin (given.map readDeclaration) name) ∧
    ∃ sc e ws, Script.ofSource none "[Alias('ls')]\nparam()".toList = .ok sc ∧
      Script.extract (builtin.declareText "LS=Get-Foo") "Get-Foo".toList sc = .ok (e, ws) ∧
      ws ≠ [] := by
  constructor
  · intro hall
    have hlatest := hall ["LS=Get-Foo".toList] "ls".toList
    revert hlatest
    decide +kernel
  · have hrun : ((Script.ofSource none "[Alias('ls')]\nparam()".toList).toOption.any fun sc =>
        (sc.extract (builtin.declareText "LS=Get-Foo") "Get-Foo".toList).toOption.any fun p =>
          p.2 ≠ []) = true := by decide +kernel
    obtain ⟨sc, hsource, hrun⟩ := toOption_any.mp hrun
    obtain ⟨⟨e, ws⟩, hextract, hrun⟩ := toOption_any.mp hrun
    exact ⟨sc, e, ws, hsource, hextract, of_decide_eq_true hrun⟩

end ScriptModule.KnownAliases
