/-
  ScriptModule/Proofs/Sections.lean
  =================================
  **How sections grow.**  Taking in a definition either finds it there, and then changes no
  section, or puts it at the end of the section of its kind.  So a section lists the
  definitions that were declared, each name once, in the order of their declarations.
-/
import ScriptModule.Proofs.Intake
import ScriptModule.Proofs.RegistryRuns

namespace ScriptModule

/-! ### Entries -/

/-- The entry that a contribution asks for, and its section. -/
def Contribution.entry? : Contribution → Option (SectionKind × Entry)
  | .definition kind key value _ place => some (kind, ⟨key, value, place.filename⟩)
  | .classType c text place => some (.classType, ⟨c.name, text, place.filename⟩)
  | _ => none

theorem Contribution.entry?_of_none {c : Contribution} (h : c.definition? = none) :
    c.entry? = none := by
  cases c with
  | definition => cases h
  | classType => cases h
  | _ => rfl

/-- The entry that a contribution asks for in the section of a kind. -/
def Contribution.entryOf (kind : SectionKind) (c : Contribution) : Option Entry :=
  match c.entry? with
  | some (k, e) => if k = kind then some e else none
  | none => none

/-! ### One definition -/

namespace Registry

/-- How a definition is taken in: no rival has its name, and it is there already, or its
    name is new and it becomes the last of its section. -/
structure Takes (r r' : Registry) (kind : SectionKind) (e : Entry) : Prop where
  free : ∀ k ∈ kind.rivals, (r.sectionOf k).find? e.key = none
  outcome : (r' = r ∧ ∃ old, (r.sectionOf kind).find? e.key = some old ∧ old.value = e.value) ∨
    ((r.sectionOf kind).find? e.key = none ∧
      (∀ k, k ≠ kind → r'.sectionOf k = r.sectionOf k) ∧
      (r'.sectionOf kind).rows = (r.sectionOf kind).rows ++ [(Text.fold e.key, e)])

theorem takes_add {r : Registry} {kind : SectionKind} {e : Entry} :
    match r.add kind e.key e.value e.filename kind.rivals with
    | (r', none) => r.Takes r' kind e
    | (r', some p) => r' = r ∧ (p.severity.isFatal = false → r.Takes r kind e) := by
  have hstep := outcome_register r ⟨kind, e.key, e.value, e.filename, kind.rivals⟩
  unfold register at hstep
  rcases hadd : r.add kind e.key e.value e.filename kind.rivals with ⟨r', outcome⟩
  simp only [hadd] at hstep
  cases hstep with
  | accepted free new h => exact ⟨find?_of_not_hasRival free, .inr ⟨new, h.others, h.rows⟩⟩
  | duplicate hp free found same =>
    exact ⟨rfl, fun _ => ⟨find?_of_not_hasRival free, .inl ⟨rfl, _, found, same⟩⟩⟩
  | conflict hp => exact ⟨rfl, fun hmild => absurd hmild (by simp [hp, Severity.isFatal])⟩
  | rival hp => exact ⟨rfl, fun hmild => absurd hmild (by simp [hp, Severity.isFatal])⟩

variable {r r' : Registry} {kind : SectionKind} {e : Entry}

/-- What was there stays there. -/
theorem Takes.mem (h : r.Takes r' kind e) {k : SectionKind} {row : Text × Entry}
    (hrow : row ∈ (r.sectionOf k).rows) : row ∈ (r'.sectionOf k).rows := by
  rcases h.outcome with ⟨rfl, -⟩ | ⟨-, hother, hrows⟩
  · exact hrow
  · by_cases hk : k = kind
    · subst hk
      rw [hrows]
      exact List.mem_append_left _ hrow
    · rw [hother k hk]
      exact hrow

/-- What is there behind a step was there, or is what the step brought. -/
theorem Takes.cases (h : r.Takes r' kind e) {k : SectionKind} {row : Text × Entry}
    (hrow : row ∈ (r'.sectionOf k).rows) :
    row ∈ (r.sectionOf k).rows ∨ (k = kind ∧ row = (Text.fold e.key, e)) := by
  rcases h.outcome with ⟨rfl, -⟩ | ⟨-, hother, hrows⟩
  · exact .inl hrow
  · by_cases hk : k = kind
    · subst hk
      rw [hrows] at hrow
      rcases List.mem_append.mp hrow with hrow | hrow
      · exact .inl hrow
      · exact .inr ⟨rfl, List.mem_singleton.mp hrow⟩
    · rw [hother k hk] at hrow
      exact .inl hrow

end Registry

namespace Draft

/-- What is judged is no grave problem, and leads at most to a warning. -/
theorem judge_eq_ok {d d' : Draft} {place : Place} {p : Option Problem}
    (h : d.judge place p = .ok d') :
    d'.registry = d.registry ∧ d'.classes = d.classes ∧ d'.requirement = d.requirement ∧
      ∀ q ∈ p, q.severity.isFatal = false := by
  cases p with
  | none =>
    cases h
    exact ⟨rfl, rfl, rfl, nofun⟩
  | some p =>
    rw [judge] at h
    split at h
    · cases h
    · next hmild =>
      cases h
      refine ⟨rfl, rfl, rfl, ?_⟩
      rintro _ ⟨⟩
      exact Bool.eq_false_iff.mpr hmild

/-- What taking in a contribution does to the registry. -/
theorem registry_take {d d' : Draft} {c : Contribution} (hc : c.IsStandard)
    (h : d.take c = .ok d') :
    match c.entry? with
    | some (kind, e) => d.registry.Takes d'.registry kind e
    | none => d'.registry = d.registry := by
  cases c with
  | event e =>
    cases h
    rfl
  | warning r =>
    cases h
    rfl
  | fact f place =>
    simp only [take] at h
    split at h <;> cases h
    rfl
  | importing i place => exact (judge_eq_ok h).1
  | definition kind key value rivals place =>
    obtain rfl : rivals = kind.rivals := hc _ rfl
    have hadd := @Registry.takes_add d.registry kind ⟨key, value, place.filename⟩
    simp only [take] at h
    obtain ⟨hregistry, -, -, hmild⟩ := judge_eq_ok h
    change d.registry.Takes d'.registry kind ⟨key, value, place.filename⟩
    rw [hregistry]
    rcases hr : d.registry.add kind key value place.filename kind.rivals with ⟨r', _ | p⟩ <;>
      simp only [hr] at hadd hmild ⊢
    · exact hadd
    · obtain ⟨rfl, htakes⟩ := hadd
      exact htakes (hmild p rfl)
  | classType c text place =>
    have hadd := @Registry.takes_add d.registry .classType ⟨c.name, text, place.filename⟩
    have hrivals : SectionKind.classType.rivals = [] := rfl
    rw [hrivals] at hadd
    simp only [take] at h
    obtain ⟨hregistry, -, -, hmild⟩ := judge_eq_ok h
    change d.registry.Takes d'.registry .classType ⟨c.name, text, place.filename⟩
    rw [hregistry]
    rcases hr : d.registry.add .classType c.name text place.filename [] with ⟨r', _ | p⟩ <;>
      simp only [hr] at hadd hmild ⊢
    · exact hadd
    · obtain ⟨rfl, htakes⟩ := hadd
      exact htakes (hmild p rfl)
  | refusal f => cases h

/-- A section grows at its end, by the entry asked for. -/
theorem entries_take {d d' : Draft} {c : Contribution} (hc : c.IsStandard)
    (h : d.take c = .ok d') (kind : SectionKind) :
    ∃ new, new.Sublist (c.entryOf kind).toList ∧
      (d'.registry.sectionOf kind).entries = (d.registry.sectionOf kind).entries ++ new := by
  have hstep := registry_take hc h
  unfold Contribution.entryOf
  rcases hentry : c.entry? with _ | ⟨k, e⟩ <;> simp only [hentry] at hstep
  · exact ⟨[], List.nil_sublist _, by rw [hstep, List.append_nil]⟩
  · rcases hstep.outcome with ⟨hsame, -⟩ | ⟨-, hother, hrows⟩
    · exact ⟨[], List.nil_sublist _, by rw [hsame, List.append_nil]⟩
    · by_cases hk : k = kind
      · subst hk
        refine ⟨[e], by simp, ?_⟩
        change (d'.registry.sectionOf k).rows.map Prod.snd = _
        rw [hrows, List.map_append]
        rfl
      · exact ⟨[], List.nil_sublist _, by rw [hother kind (Ne.symm hk), List.append_nil]⟩

theorem entries_takeAll {cs : List Contribution} (hcs : AllStandard cs) (d : Draft)
    (kind : SectionKind) :
    ∃ new, new.Sublist (cs.filterMap (Contribution.entryOf kind)) ∧
      ((d.takeAll cs).1.registry.sectionOf kind).entries =
        (d.registry.sectionOf kind).entries ++ new := by
  induction cs generalizing d with
  | nil => exact ⟨[], List.nil_sublist _, (List.append_nil _).symm⟩
  | cons c cs ih =>
    simp only [takeAll]
    rcases htake : d.take c with f | d'
    · exact ⟨[], List.nil_sublist _, (List.append_nil _).symm⟩
    · obtain ⟨first, hfirst, hd'⟩ := entries_take (hcs c List.mem_cons_self) htake kind
      obtain ⟨more, hmore, hrest⟩ := ih (fun e he => hcs e (List.mem_cons_of_mem _ he)) d'
      refine ⟨first ++ more, ?_, by rw [hrest, hd', List.append_assoc]⟩
      have hsplit : (c :: cs).filterMap (Contribution.entryOf kind) =
          (c.entryOf kind).toList ++ cs.filterMap (Contribution.entryOf kind) := by
        cases hc : c.entryOf kind <;> simp [hc]
      rw [hsplit]
      exact hfirst.append hmore

end Draft
end ScriptModule
