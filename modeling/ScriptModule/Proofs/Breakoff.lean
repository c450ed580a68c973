/-
  ScriptModule/Proofs/Breakoff.lean
  =================================
  **Where an intake breaks off.**  A file that cannot be taken in is refused with a report,
  whatever is in the draft, unless a number stands in its way: a part of a version that is
  made of digits and cannot be read as a number, or the value of a member that is too long
  to be printed.  Then the intake breaks off without a report.
-/
import ScriptModule.Draft.Basic
import ScriptModule.Proofs.CanonicalEnum
import ScriptModule.Proofs.MergedRequirement

namespace ScriptModule

/-! ### Numbers that cannot be read -/

namespace Version

/-- The texts between the dots of a version. -/
def parts (t : Text) : List Text := Text.fields '.' (Text.trim t)

/-- Whether a text looks like a version and is none: its parts are digits, and one of them
    is too long or has a digit without a decimal value. -/
structure IsUnreadable (t : Text) : Prop where
  digits : ∀ p ∈ parts t, isNumber p = true
  fault : ∃ p ∈ parts t, maxDigits < p.length ∨ ∃ c ∈ p, Unicode.isDecimal c = false

theorem readDecimal_eq_error {p : Text} :
    (∃ n, Numeral.readDecimal p = .error n) ↔
      maxDigits < p.length ∨ ∃ c ∈ p, Unicode.isDecimal c = false := by
  have hprefix := List.takeWhile_prefix (l := p) Unicode.isDecimal
  have hle := hprefix.length_le
  have hshort : (p.takeWhile Unicode.isDecimal).length < p.length ↔
      ∃ c ∈ p, Unicode.isDecimal c = false := by
    constructor
    · intro hlt
      by_contra hnone
      have hall : ∀ c ∈ p, Unicode.isDecimal c = true := by
        intro c hc
        by_contra hfalse
        exact hnone ⟨c, hc, Bool.eq_false_iff.mpr hfalse⟩
      rw [List.takeWhile_eq_self_iff.mpr hall] at hlt
      exact Nat.lt_irrefl _ hlt
    · rintro ⟨c, hc, hfalse⟩
      refine Nat.lt_of_le_of_ne hle fun heq => ?_
      have hself := hprefix.eq_of_length heq
      rw [List.takeWhile_eq_self_iff.mp hself c hc] at hfalse
      cases hfalse
  rw [← hshort]
  unfold Numeral.readDecimal
  dsimp only
  constructor
  · rintro ⟨n, hn⟩
    split at hn
    · exact .inl (by omega)
    · split at hn
      · next hlt => exact .inr hlt
      · cases hn
  · intro h
    split
    · exact ⟨_, rfl⟩
    · split
      · exact ⟨_, rfl⟩
      · omega

theorem mapM_eq_error {ps : List Text} :
    (∃ n, ps.mapM Numeral.readDecimal = .error n) ↔
      ∃ p ∈ ps, ∃ n, Numeral.readDecimal p = .error n := by
  induction ps with
  | nil =>
    constructor
    · rintro ⟨n, hn⟩
      cases hn
    · rintro ⟨p, hp, -⟩
      cases hp
  | cons p ps ih =>
    rw [List.mapM_cons]
    cases hp : Numeral.readDecimal p with
    | error n =>
      exact ⟨fun _ => ⟨p, List.mem_cons_self, n, hp⟩, fun _ => ⟨n, rfl⟩⟩
    | ok v =>
      have hrest : (∃ n, (Except.ok v >>= fun v => ps.mapM Numeral.readDecimal >>= fun vs =>
          (pure (v :: vs) : Except NumeralError (List Nat))) = .error n) ↔
            ∃ n, ps.mapM Numeral.readDecimal = .error n := by
        cases ps.mapM Numeral.readDecimal <;> simp [bind, Except.bind, pure, Except.pure]
      rw [hrest, ih]
      constructor
      · rintro ⟨q, hq, hn⟩
        exact ⟨q, List.mem_cons_of_mem p hq, hn⟩
      · rintro ⟨q, hq, n, hn⟩
        rcases List.mem_cons.mp hq with rfl | hq
        · cases hn.symm.trans hp
        · exact ⟨q, hq, n, hn⟩

theorem read?_eq_error {t : Text} : (∃ n, read? t = .error n) ↔ IsUnreadable t := by
  have hread : (∃ n, read? t = .error n) ↔
      (parts t).all isNumber = true ∧ ∃ n, (parts t).mapM Numeral.readDecimal = .error n := by
    unfold read?
    change (∃ n, (if (parts t).all isNumber = true then
      ((parts t).mapM Numeral.readDecimal).map some else .ok none) = .error n) ↔ _
    split
    · next hall =>
      cases (parts t).mapM Numeral.readDecimal <;> simp [Except.map, hall]
    · next hall => simp [hall]
  rw [hread, mapM_eq_error, List.all_eq_true]
  constructor
  · rintro ⟨hall, p, hp, hn⟩
    exact ⟨hall, p, hp, readDecimal_eq_error.mp hn⟩
  · rintro ⟨hall, p, hp, hfault⟩
    exact ⟨hall, p, hp, readDecimal_eq_error.mpr hfault⟩

end Version

/-! ### Values that cannot be printed -/

namespace EnumDef

/-- The canonical text of an enumeration breaks off at a value that is too long. -/
theorem canonicalText_eq_numeral {e : EnumDef} :
    (∃ n, e.canonicalText = .error (.numeral n)) ↔
      ∃ vs, e.values = .ok vs ∧ ¬ Printable vs := by
  unfold canonicalText
  cases hvalues : e.values with
  | error p => simp
  | ok vs =>
    have hlines : (∃ n, vs.mapM (memberLine (nameWidth vs)) = .error n) ↔ ¬ Printable vs := by
      cases hvs : vs.mapM (memberLine (nameWidth vs)) with
      | error n =>
        refine ⟨fun _ hprintable => ?_, fun _ => ⟨n, rfl⟩⟩
        cases hvs.symm.trans (mapM_memberLine_iff.mpr ⟨hprintable, rfl⟩)
      | ok ls => simp [(mapM_memberLine_iff.mp hvs).1]
    simp only [Except.ok.injEq, exists_eq_left']
    rw [← hlines]
    cases vs.mapM (memberLine (nameWidth vs)) <;> simp

end EnumDef

/-! ### Contributions that break off -/

/-- Whether a contribution breaks an intake off. -/
def Contribution.BreaksOff (a : Abort) : Contribution → Prop
  | .fact (.version t) _ => ∃ n, Version.read? t = .error n ∧ a = .numeral n
  | .fact (.module spec) _ => ∃ n, spec.checkVersions = .error (.numeral n) ∧ a = .numeral n
  | .refusal f => f = .abort a
  | _ => False

namespace ModuleSpec

variable {c spec : ModuleSpec} {n : NumeralError}

theorem withGuid_ne_numeral : c.withGuid spec ≠ .error (.numeral n) := by
  intro h
  unfold withGuid at h
  split at h
  · cases h
  · split at h <;> cases h
  · cases h

theorem withPin_ne_numeral : c.withPin spec ≠ .error (.numeral n) := by
  intro h
  unfold withPin at h
  split at h
  · cases h
  · split at h
    · split at h
      · cases h
      · split at h <;> cases h
    · split at h <;> cases h

theorem withMinimum_ne_numeral : c.withMinimum spec ≠ .error (.numeral n) := by
  intro h
  unfold withMinimum at h
  split at h
  · cases h
  · split at h
    · cases h
    · cases h
    · split at h <;> cases h

theorem withMaximum_ne_numeral : c.withMaximum spec ≠ .error (.numeral n) := by
  intro h
  unfold withMaximum at h
  split at h
  · cases h
  · split at h
    · cases h
    · cases h
    · split at h <;> cases h

/-- Only the check of the bounds can break off. -/
theorem tighten_eq_numeral :
    c.tighten spec = .error (.numeral n) ↔ spec.checkVersions = .error (.numeral n) := by
  unfold tighten
  constructor
  · intro h
    rcases bind_eq_error.mp h with hcheck | ⟨_, _, hguid⟩
    · exact hcheck
    · rcases bind_eq_error.mp hguid with hguid | ⟨_, _, hpin⟩
      · exact absurd hguid withGuid_ne_numeral
      · rcases bind_eq_error.mp hpin with hpin | ⟨_, _, hlow⟩
        · exact absurd hpin withPin_ne_numeral
        · rcases bind_eq_error.mp hlow with hlow | ⟨_, _, hhigh⟩
          · exact absurd hlow withMinimum_ne_numeral
          · exact absurd hhigh withMaximum_ne_numeral
  · intro hcheck
    exact bind_eq_error.mpr (.inl hcheck)

theorem checkVersion_eq_numeral {role : VersionRole} {bound : Option Text}
    (h : spec.checkVersion role bound = .error (.numeral n)) :
    ∃ t ∈ bound, Version.read? t = .error n := by
  unfold checkVersion at h
  split at h
  · cases h
  · next t =>
    split at h
    · next e hread =>
      cases h
      exact ⟨t, rfl, hread⟩
    · cases h
    · cases h

theorem checkVersions_eq_numeral (h : spec.checkVersions = .error (.numeral n)) :
    ∃ t ∈ spec.bounds, Version.read? t = .error n := by
  have hbound : ∀ {role bound}, spec.checkVersion role bound = .error (.numeral n) →
      bound.toList ⊆ spec.bounds → ∃ t ∈ spec.bounds, Version.read? t = .error n := by
    intro role bound hcheck hsubset
    obtain ⟨t, ht, hread⟩ := checkVersion_eq_numeral hcheck
    exact ⟨t, hsubset (Option.mem_toList.mpr ht), hread⟩
  unfold checkVersions at h
  rcases bind_eq_error.mp h with hlow | ⟨_, _, hrest⟩
  · exact hbound hlow (by simp [bounds])
  · rcases bind_eq_error.mp hrest with hhigh | ⟨_, _, hexact⟩
    · exact hbound hhigh (by simp [bounds])
    · exact hbound hexact (by simp [bounds])

end ModuleSpec

namespace Draft

variable {d : Draft}

theorem judge_ne_abort {place : Place} {p : Option Problem} {a : Abort} :
    d.judge place p ≠ .error (.abort a) := by
  intro h
  unfold judge at h
  split at h
  · cases h
  · split at h <;> cases h

/-- What breaks off does so in every draft. -/
theorem take_eq_abort {c : Contribution} {a : Abort} :
    d.take c = .error (.abort a) ↔ c.BreaksOff a := by
  cases c with
  | event e => exact ⟨fun h => (by cases h), False.elim⟩
  | warning r => exact ⟨fun h => (by cases h), False.elim⟩
  | fact f place =>
    have htake : d.take (.fact f place) = .error (.abort a) ↔
        ∃ n, d.requirement.require f = .error (.numeral n) ∧ a = .numeral n := by
      rcases hrequire : d.requirement.require f with (p | n) | r
      · simp [take, hrequire]
      · simp [take, hrequire, eq_comm]
      · simp [take, hrequire]
    rw [htake]
    cases f with
    | legacyAssembly => simp [Requirement.require, Contribution.BreaksOff]
    | elevation => simp [Requirement.require, Contribution.BreaksOff]
    | editions names =>
      have hrequire : ∀ n, d.requirement.require (.editions names) ≠ .error (.numeral n) := by
        intro n h
        unfold Requirement.require at h
        dsimp only at h
        split at h
        · cases h
        · split at h <;> cases h
      constructor
      · rintro ⟨n, hn, -⟩
        exact hrequire n hn
      · exact False.elim
    | version t =>
      have hrequire : ∀ n, d.requirement.require (.version t) = .error (.numeral n) ↔
          Version.read? t = .error n := by
        intro n
        rcases hread : Version.read? t with e | _ | v <;> simp [Requirement.require, hread]
      simp only [hrequire, Contribution.BreaksOff]
    | module spec =>
      have hrequire : ∀ n, d.requirement.require (.module spec) = .error (.numeral n) ↔
          spec.checkVersions = .error (.numeral n) := by
        intro n
        let kept := (d.requirement.modules.get? (Text.fold spec.name)).getD { name := spec.name }
        rw [← @ModuleSpec.tighten_eq_numeral kept]
        rcases htighten : kept.tighten spec with e | m <;>
          simp [Requirement.require, kept, htighten]
      simp only [hrequire, Contribution.BreaksOff]
  | importing i place => exact ⟨fun h => absurd h judge_ne_abort, False.elim⟩
  | definition kind key value rivals place => exact ⟨fun h => absurd h judge_ne_abort, False.elim⟩
  | classType c text place => exact ⟨fun h => absurd h judge_ne_abort, False.elim⟩
  | refusal f =>
    constructor
    · intro h
      exact Except.error.inj h
    · intro h
      exact congrArg Except.error h

/-- An intake fails with the failure of one of the contributions. -/
theorem exists_of_takeAll {cs : List Contribution} {d' : Draft} {f : Failure}
    (h : d.takeAll cs = (d', some f)) : ∃ c ∈ cs, d'.take c = .error f := by
  induction cs generalizing d with
  | nil => cases h
  | cons c cs ih =>
    rw [takeAll] at h
    cases htake : d.take c with
    | error e =>
      rw [htake] at h
      cases h
      exact ⟨c, List.mem_cons_self, htake⟩
    | ok e =>
      rw [htake] at h
      obtain ⟨b, hb, hfail⟩ := ih h
      exact ⟨b, List.mem_cons_of_mem c hb, hfail⟩

/-- What was taken in was accepted in some draft. -/
theorem ok_of_takeAll {cs : List Contribution} {d' : Draft} (h : d.takeAll cs = (d', none)) :
    ∀ c ∈ cs, ∃ e e' : Draft, e.take c = .ok e' := by
  induction cs generalizing d with
  | nil =>
    intro c hc
    cases hc
  | cons b cs ih =>
    intro c hc
    rw [takeAll] at h
    cases htake : d.take b with
    | error f =>
      rw [htake] at h
      cases h
    | ok e =>
      rw [htake] at h
      rcases List.mem_cons.mp hc with rfl | hc
      · exact ⟨d, e, htake⟩
      · exact ih h c hc

end Draft

/-! ### Statements that break off -/

/-- The version texts of a requirement comment. -/
def Requires.versions (r : Requires) : List Text :=
  r.version.toList ++ r.modules.flatMap ModuleSpec.bounds

/-- Whether a statement has a version that cannot be read, or a value that cannot be
    printed. -/
def Statement.IsUnreadable (st : Statement) : Prop :=
  match st.content with
  | .requirement r => ∃ t ∈ r.versions, Version.IsUnreadable t
  | .enumeration e => ∃ vs, e.values = .ok vs ∧ ¬ EnumDef.Printable vs
  | _ => False

theorem EnumDef.breaksOff_contribution {e : EnumDef} {place : Place} {a : Abort}
    (h : (e.contribution place).BreaksOff a) :
    (∃ vs, e.values = .ok vs ∧ ¬ Printable vs) ∧ ∃ n, a = .numeral n := by
  unfold contribution at h
  cases htext : e.canonicalText with
  | ok text =>
    rw [htext] at h
    cases h
  | error r =>
    rw [htext] at h
    cases r with
    | problem p => cases h
    | numeral n =>
      cases h
      exact ⟨canonicalText_eq_numeral.mp ⟨n, htext⟩, n, rfl⟩

theorem Statement.breaksOff_contributions {st : Statement} {c : Contribution} {a : Abort}
    (hc : c ∈ st.contributions) (h : c.BreaksOff a) : st.IsUnreadable ∧ ∃ n, a = .numeral n := by
  unfold contributions at hc
  unfold IsUnreadable
  split at hc
  · next r hcontent =>
    rw [hcontent]
    obtain ⟨f, hf, rfl⟩ := List.mem_map.mp hc
    cases f with
    | legacyAssembly => cases h
    | editions names => cases h
    | elevation => cases h
    | version t =>
      obtain ⟨n, hread, rfl⟩ := h
      have hversion := Option.mem_toList.mpr ((r.version_mem_facts t).mp hf)
      exact ⟨⟨t, List.mem_append_left _ hversion, Version.read?_eq_error.mp ⟨n, hread⟩⟩, n, rfl⟩
    | module spec =>
      obtain ⟨n, hcheck, rfl⟩ := h
      obtain ⟨t, ht, hread⟩ := ModuleSpec.checkVersions_eq_numeral hcheck
      have hbound := List.mem_flatMap.mpr ⟨spec, (r.module_mem_facts spec).mp hf, ht⟩
      exact ⟨⟨t, List.mem_append_right _ hbound, Version.read?_eq_error.mp ⟨n, hread⟩⟩, n, rfl⟩
  · cases List.mem_singleton.mp hc
    cases h
  · next e hcontent =>
    rw [hcontent]
    cases List.mem_singleton.mp hc
    exact EnumDef.breaksOff_contribution h
  · cases List.mem_singleton.mp hc
    cases h
  · cases List.mem_singleton.mp hc
    cases h
  · cases List.mem_singleton.mp hc
    cases h
  · cases List.mem_singleton.mp hc
    cases h

theorem Contribution.BreaksOff.not_taken {c : Contribution} {a : Abort} (h : c.BreaksOff a) :
    ¬ ∃ e e' : Draft, e.take c = .ok e' := by
  rintro ⟨e, e', hok⟩
  cases hok.symm.trans (Draft.take_eq_abort.mpr h)

/-- A statement with such a number has a contribution that no draft accepts. -/
theorem Statement.IsUnreadable.not_taken {st : Statement} (h : st.IsUnreadable) :
    ∃ c ∈ st.contributions, ¬ ∃ e e' : Draft, e.take c = .ok e' := by
  unfold IsUnreadable at h
  unfold contributions
  split at h
  · next r hcontent =>
    rw [hcontent]
    obtain ⟨t, ht, hunreadable⟩ := h
    obtain ⟨n, hread⟩ := Version.read?_eq_error.mpr hunreadable
    rcases List.mem_append.mp ht with ht | ht
    · have hfact := (r.version_mem_facts t).mpr (Option.mem_toList.mp ht)
      refine ⟨_, List.mem_map.mpr ⟨_, hfact, rfl⟩, ?_⟩
      exact Contribution.BreaksOff.not_taken ⟨n, hread, rfl⟩
    · obtain ⟨spec, hspec, ht⟩ := List.mem_flatMap.mp ht
      have hfact := (r.module_mem_facts spec).mpr hspec
      refine ⟨_, List.mem_map.mpr ⟨_, hfact, rfl⟩, ?_⟩
      -- an earlier bound may be refused first, so the intake need not break off here
      rintro ⟨e, e', hok⟩
      rcases hrequire : e.requirement.require (.module spec) with (p | n) | req
      · simp [Draft.take, hrequire] at hok
      · simp [Draft.take, hrequire] at hok
      · unfold Requirement.require at hrequire
        dsimp only at hrequire
        split at hrequire
        · cases hrequire
        · next m htighten =>
          obtain ⟨hcheck, -, -⟩ := ModuleSpec.tighten_eq_ok.mp htighten
          obtain ⟨v, hv⟩ := ModuleSpec.checkVersions_eq_ok.mp hcheck t ht
          cases hv.symm.trans hread
  · next e hcontent =>
    rw [hcontent]
    refine ⟨_, List.mem_singleton.mpr rfl, ?_⟩
    obtain ⟨n, htext⟩ := EnumDef.canonicalText_eq_numeral.mpr h
    have hbreaks : (e.contribution st.place).BreaksOff (.numeral n) := by
      rw [EnumDef.contribution, htext]
      rfl
    exact hbreaks.not_taken
  · cases h

/-! ### Files that break off -/

/-- The statements that are taken in from a file: the directives of an entry point, or the
    statements of any other script. -/
def readStatements (known : KnownAliases) (filename source : Text) : List Statement :=
  match scan source with
  | .error _ => []
  | .ok s =>
    let sc : Script := ⟨some filename, source, s.tokens, s.stop⟩
    if sc.isEntryPoint then
      match sc.extract known (entryPointName filename) with
      | .error _ => []
      | .ok (e, _) => e.directives
    else sc.statements.toOption.getD []

theorem EntryPoint.breaksOff_contributions {e : EntryPoint} {c : Contribution} {a : Abort}
    (hc : c ∈ e.contributions) (h : c.BreaksOff a) :
    ∃ st ∈ e.directives, c ∈ st.contributions := by
  unfold contributions at hc
  rcases List.mem_append.mp hc with hc | hc
  · exact List.mem_flatMap.mp hc
  · rcases List.mem_cons.mp hc with rfl | hc
    · cases h
    · obtain ⟨b, -, rfl⟩ := List.mem_map.mp hc
      cases h

/-- Nothing but a statement of the file breaks it off. -/
theorem breaksOff_sourceContributions {known : KnownAliases} {source filename : Text}
    {position : Option (Int × Int)} {c : Contribution} {a : Abort}
    (hc : c ∈ sourceContributions known source filename position) (h : c.BreaksOff a) :
    ∃ st ∈ readStatements known filename source, c ∈ st.contributions := by
  unfold sourceContributions at hc
  unfold readStatements
  rcases List.mem_cons.mp hc with rfl | hc
  · cases h
  · cases hscan : scan source with
    | error e =>
      rw [hscan] at hc
      cases List.mem_singleton.mp hc
      cases h
    | ok s =>
      rw [hscan] at hc
      let sc : Script := ⟨some filename, source, s.tokens, s.stop⟩
      change c ∈ (if sc.isEntryPoint then _ else _) at hc
      change ∃ st ∈ (if sc.isEntryPoint then _ else _), _
      split at hc
      · next hentry =>
        rw [if_pos hentry]
        rcases List.mem_cons.mp hc with rfl | hc
        · cases h
        · unfold Script.entryContributions at hc
          cases hextract : sc.extract known (entryPointName filename) with
          | error r =>
            rw [hextract] at hc
            cases List.mem_singleton.mp hc
            cases h
          | ok entry =>
            rw [hextract] at hc
            rcases List.mem_append.mp hc with hc | hc
            · obtain ⟨r, -, rfl⟩ := List.mem_map.mp hc
              cases h
            · exact EntryPoint.breaksOff_contributions hc h
      · next hentry =>
        rw [if_neg hentry]
        unfold Script.statementContributions at hc
        cases hsts : sc.statements with
        | error r =>
          rw [hsts] at hc
          cases List.mem_singleton.mp hc
          cases h
        | ok sts =>
          rw [hsts] at hc
          rcases List.mem_cons.mp hc with rfl | hc
          · cases h
          · exact List.mem_flatMap.mp hc

/-- The contributions of a file that is taken in are those of its statements, and more. -/
theorem mem_sourceContributions {known : KnownAliases} {source filename : Text}
    {position : Option (Int × Int)} {st : Statement} {c : Contribution}
    (hst : st ∈ readStatements known filename source) (hc : c ∈ st.contributions) :
    c ∈ sourceContributions known source filename position := by
  unfold readStatements at hst
  unfold sourceContributions
  refine List.mem_cons_of_mem _ ?_
  cases hscan : scan source with
  | error e =>
    rw [hscan] at hst
    cases hst
  | ok s =>
    rw [hscan] at hst
    let sc : Script := ⟨some filename, source, s.tokens, s.stop⟩
    change st ∈ (if sc.isEntryPoint then _ else _) at hst
    change c ∈ (if sc.isEntryPoint then _ else _)
    split at hst
    · next hentry =>
      rw [if_pos hentry]
      refine List.mem_cons_of_mem _ ?_
      unfold Script.entryContributions
      cases hextract : sc.extract known (entryPointName filename) with
      | error r =>
        rw [hextract] at hst
        cases hst
      | ok entry =>
        rw [hextract] at hst
        refine List.mem_append_right _ (List.mem_append_left _ ?_)
        exact List.mem_flatMap.mpr ⟨st, hst, hc⟩
    · next hentry =>
      rw [if_neg hentry]
      unfold Script.statementContributions
      cases hsts : sc.statements with
      | error r =>
        rw [hsts] at hst
        cases hst
      | ok sts =>
        rw [hsts] at hst
        exact List.mem_cons_of_mem _ (List.mem_flatMap.mpr ⟨st, hst, hc⟩)

/-- A file is taken in, and then all numbers of its statements can be read and printed; or
    it is refused with a report; or a number of a statement cannot be read or printed, and
    the intake breaks off without a report. -/
theorem Draft.addSource_outcome (known : KnownAliases) (d : Draft) (source filename : Text)
    (position : Option (Int × Int)) :
    let outcome := (d.addSource known source filename position).2
    let sts := readStatements known filename source
    (outcome = none ∧ ∀ st ∈ sts, ¬ st.IsUnreadable) ∨ (∃ r, outcome = some (.report r)) ∨
      ∃ n, outcome = some (.abort (.numeral n)) ∧ ∃ st ∈ sts, st.IsUnreadable := by
  intro outcome sts
  have htake : d.takeAll (sourceContributions known source filename position) =
      ((d.addSource known source filename position).1, outcome) := rfl
  rcases houtcome : outcome with _ | r | a
  · refine .inl ⟨rfl, fun st hst hunreadable => ?_⟩
    rw [houtcome] at htake
    obtain ⟨c, hc, hrefused⟩ := hunreadable.not_taken
    exact hrefused (ok_of_takeAll htake c (mem_sourceContributions hst hc))
  · exact .inr (.inl ⟨r, rfl⟩)
  · rw [houtcome] at htake
    obtain ⟨c, hc, hfail⟩ := exists_of_takeAll htake
    have hbreaks := take_eq_abort.mp hfail
    obtain ⟨st, hst, hcst⟩ := breaksOff_sourceContributions hc hbreaks
    obtain ⟨hunreadable, n, rfl⟩ := Statement.breaksOff_contributions hcst hbreaks
    exact .inr (.inr ⟨n, rfl, st, hst, hunreadable⟩)

/-- A digit without a decimal value in a version breaks the intake off. -/
theorem Draft.addSource_breaksOff :
    ¬ ∀ (known : KnownAliases) (d : Draft) (source filename : Text)
      (position : Option (Int × Int)),
      let outcome := (d.addSource known source filename position).2
      outcome = none ∨ ∃ r, outcome = some (.report r) := by
  intro hall
  have hrun : (({} : Draft).addSource Table.empty "#Requires -Version ²".toList
      "a.ps1".toList none).2 = some (.abort (.numeral (.notDecimal ['²']))) := by
    decide +kernel
  rcases hall Table.empty {} "#Requires -Version ²".toList "a.ps1".toList none with hnone | ⟨r, hr⟩
  · cases hrun.symm.trans hnone
  · cases hrun.symm.trans hr

end ScriptModule
