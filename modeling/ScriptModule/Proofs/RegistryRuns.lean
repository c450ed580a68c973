/-
  ScriptModule/Proofs/RegistryRuns.lean
  =====================================
  **Runs of registrations.**  What is registered is accepted exactly if its name is new in
  its section and in none of the rival ones; else it leaves no trace.  So behind a run a
  section lists what was accepted for it, in that order, and whether a name is new can be
  read off the registrations accepted so far.
-/
import ScriptModule.Merge.Registry
import ScriptModule.Proofs.TableRows

namespace ScriptModule

/-! ### Registrations -/

/-- A definition to be registered, and the kinds that may not have its name. -/
structure Registration where
  kind : SectionKind
  key : Text
  value : Text
  filename : Option Text := none
  rivals : List SectionKind := []
deriving DecidableEq, Repr

def Registration.entry (x : Registration) : Entry := ⟨x.key, x.value, x.filename⟩

/-- The row that a registration adds to its section. -/
def Registration.row (x : Registration) : Text × Entry := (Text.fold x.key, x.entry)

namespace Registry

def register (r : Registry) (x : Registration) : Registry × Option Problem :=
  r.add x.kind x.key x.value x.filename x.rivals

/-- The registry behind a run, and what became of each registration. -/
def registerAll (r : Registry) : List Registration → Registry × List (Option Problem)
  | [] => (r, [])
  | x :: xs =>
    let step := r.register x
    let run := step.1.registerAll xs
    (run.1, step.2 :: run.2)

/-- The registrations that no problem was reported for. -/
def accepted (xs : List Registration) (outcomes : List (Option Problem)) : List Registration :=
  (xs.zip outcomes).filterMap fun x => if x.2.isNone then some x.1 else none

/-- Whether a name is in one of the rival sections. -/
def HasRival (r : Registry) (x : Registration) : Prop :=
  ∃ k ∈ x.rivals, ((r.sectionOf k).find? x.key).isSome

variable {r r' : Registry} {x : Registration} {xs : List Registration}

theorem rival?_eq_none_iff : r.rival? x.key x.rivals = none ↔ ¬ r.HasRival x := by
  simp [rival?, HasRival]

theorem find?_of_not_hasRival (h : ¬ r.HasRival x) :
    ∀ k ∈ x.rivals, (r.sectionOf k).find? x.key = none := by
  simpa [HasRival] using h

theorem sectionOf_insert (r : Registry) (kind k : SectionKind) (s : Section) :
    (⟨r.sections.insert kind s⟩ : Registry).sectionOf k = if k = kind then s else r.sectionOf k := by
  by_cases hk : k = kind <;> simp [sectionOf, hk]

/-! ### One registration -/

/-- How a registration is accepted: it becomes the last row of its section. -/
structure Accepts (r r' : Registry) (x : Registration) : Prop where
  rows : (r'.sectionOf x.kind).rows = (r.sectionOf x.kind).rows ++ [x.row]
  others : ∀ k, k ≠ x.kind → r'.sectionOf k = r.sectionOf k
  used : ∀ k ∈ r'.sections.keys, k = x.kind ∨ k ∈ r.sections.keys

/-- What a registration may come to.  Only what is accepted changes the registry. -/
inductive Outcome (r : Registry) (x : Registration) : Registry → Option Problem → Prop where
  | accepted {r' : Registry} (free : ¬ r.HasRival x)
      (new : (r.sectionOf x.kind).find? x.key = none) (h : r.Accepts r' x) : Outcome r x r' none
  | duplicate {p : Problem} {e : Entry} (hp : p.severity = .omission) (free : ¬ r.HasRival x)
      (found : (r.sectionOf x.kind).find? x.key = some e) (same : e.value = x.value) :
      Outcome r x r (some p)
  | conflict {p : Problem} {e : Entry} (hp : p.severity = .collision) (free : ¬ r.HasRival x)
      (found : (r.sectionOf x.kind).find? x.key = some e) (other : e.value ≠ x.value) :
      Outcome r x r (some p)
  | rival {p : Problem} (hp : p.severity = .collision) (h : r.HasRival x) : Outcome r x r (some p)

theorem accepts_insert (hnew : (r.sectionOf x.kind).find? x.key = none) :
    r.Accepts ⟨r.sections.insert x.kind ((r.sectionOf x.kind).put x.key x.value x.filename)⟩ x := by
  have hkey : Text.fold x.key ∉ (r.sectionOf x.kind).keys := Table.not_mem_keys_of_get? hnew
  constructor
  · rw [sectionOf_insert, if_pos rfl]
    exact Table.rows_insert hkey _
  · intro k hk
    rw [sectionOf_insert, if_neg hk]
  · intro k hk
    obtain ⟨row, hrow, rfl⟩ := List.mem_map.mp hk
    rcases Table.mem_rows_insert hrow with hrow | rfl
    · exact .inr (List.mem_map_of_mem hrow)
    · exact .inl rfl

theorem outcome_register (r : Registry) (x : Registration) :
    Outcome r x (r.register x).1 (r.register x).2 := by
  unfold register add
  rcases hrival : r.rival? x.key x.rivals with _ | found
  · have hfree := rival?_eq_none_iff.mp hrival
    rcases hfind : (r.sectionOf x.kind).find? x.key with _ | e
    · exact .accepted hfree hfind (accepts_insert hfind)
    · by_cases hsame : e.value = x.value
      · simp only [hsame, if_true]
        exact .duplicate rfl hfree hfind hsame
      · simp only [hsame, if_false]
        exact .conflict rfl hfree hfind hsame
  · apply Outcome.rival rfl
    apply Classical.byContradiction
    intro hfree
    rw [rival?_eq_none_iff.mpr hfree] at hrival
    exact nomatch hrival

/-- A registration changes no section but its own. -/
theorem sectionOf_register_of_ne (r : Registry) (x : Registration) {k : SectionKind}
    (hk : k ≠ x.kind) : (r.register x).1.sectionOf k = r.sectionOf k := by
  have hstep := outcome_register r x
  generalize (r.register x).1 = r', (r.register x).2 = outcome at hstep ⊢
  cases hstep with
  | accepted free new h => exact h.others k hk
  | duplicate => rfl
  | conflict => rfl
  | rival => rfl

/-! ### The verdict on a registration -/

section

variable {outcome : Option Problem}

theorem Outcome.accepts (h : Outcome r x r' none) : r.Accepts r' x := by
  cases h with
  | accepted free new h => exact h

/-- What is not accepted leaves the registry as it was. -/
theorem Outcome.unchanged (h : Outcome r x r' outcome) (hrefused : outcome ≠ none) : r' = r := by
  cases h with
  | accepted => exact absurd rfl hrefused
  | duplicate => rfl
  | conflict => rfl
  | rival => rfl

theorem Outcome.collision_iff (h : Outcome r x r' outcome) :
    outcome.map Problem.severity = some .collision ↔
      r.HasRival x ∨ ∃ e, (r.sectionOf x.kind).find? x.key = some e ∧ e.value ≠ x.value := by
  cases h with
  | accepted free new => simp [free, new]
  | duplicate hp free found same => simp [hp, free, found, same]
  | conflict hp free found other => simp [hp, free, found, other]
  | rival hp h => simp [hp, h]

theorem Outcome.omission_iff (h : Outcome r x r' outcome) :
    outcome.map Problem.severity = some .omission ↔
      ¬ r.HasRival x ∧ ∃ e, (r.sectionOf x.kind).find? x.key = some e ∧ e.value = x.value := by
  cases h with
  | accepted free new => simp [free, new]
  | duplicate hp free found same => simp [hp, free, found, same]
  | conflict hp free found other => simp [hp, free, found, other]
  | rival hp h => simp [hp, h]

theorem Outcome.accepted_iff (h : Outcome r x r' outcome) :
    outcome = none ↔ ¬ r.HasRival x ∧ (r.sectionOf x.kind).find? x.key = none := by
  cases h with
  | accepted free new => simp [free, new]
  | duplicate hp free found same => simp [found]
  | conflict hp free found other => simp [found]
  | rival hp h => simp [h]

end

/-! ### What a registry lists -/

/-- A registry lists registrations: every section has the ones of its kind as its rows, and
    the sections in use are not empty. -/
structure Lists (r : Registry) (xs : List Registration) : Prop where
  rows : ∀ kind, (r.sectionOf kind).rows =
    (xs.filter fun x => x.kind = kind).map Registration.row
  used : ∀ kind ∈ r.sections.keys, ∃ x ∈ xs, x.kind = kind

theorem lists_empty : ({} : Registry).Lists [] where
  rows := fun _ => rfl
  used := fun _ h => nomatch h

theorem Lists.append (h : r.Lists xs) (hstep : r.Accepts r' x) : r'.Lists (xs ++ [x]) where
  rows := by
    intro kind
    rw [List.filter_append, List.map_append, ← h.rows kind]
    by_cases hkind : kind = x.kind
    · subst hkind
      rw [hstep.rows]
      simp
    · rw [hstep.others kind hkind]
      simp [Ne.symm hkind]
  used := by
    intro kind hkind
    rcases hstep.used kind hkind with rfl | hold
    · exact ⟨x, List.mem_append_right xs List.mem_cons_self, rfl⟩
    · obtain ⟨y, hy, rfl⟩ := h.used kind hold
      exact ⟨y, List.mem_append_left _ hy, rfl⟩

/-- A name stands for the first registration of that name. -/
theorem Lists.find? (h : r.Lists xs) (kind : SectionKind) (key : Text) :
    (r.sectionOf kind).find? key =
      (xs.find? fun x => x.kind = kind ∧ Text.sameName x.key key).map Registration.entry := by
  rw [Section.find?, Table.get?, h.rows kind]
  clear h
  induction xs with
  | nil => rfl
  | cons x xs ih =>
    by_cases hkind : x.kind = kind
    · rw [List.filter_cons_of_pos (by simpa using hkind), List.map_cons, Registration.row,
        lookup_row]
      by_cases hname : Text.fold key = Text.fold x.key
      · rw [if_pos hname, List.find?_cons_of_pos (by simp [hkind, Text.sameName, hname])]
        rfl
      · rw [if_neg hname, ih,
          List.find?_cons_of_neg (by simp [Text.sameName, Ne.symm hname])]
    · rw [List.filter_cons_of_neg (by simpa using hkind), ih,
        List.find?_cons_of_neg (by simp [hkind])]

/-- The names of a section are different, in any spelling. -/
theorem Lists.nodup_names (h : r.Lists xs) (kind : SectionKind) :
    ((r.sectionOf kind).names.map Text.fold).Nodup := by
  have hkeys : (r.sectionOf kind).names.map Text.fold = (r.sectionOf kind).keys := by
    rw [Section.names, Section.entries, Table.values, Table.keys, h.rows kind]
    simp [Registration.row, Registration.entry]
  rw [hkeys]
  exact (r.sectionOf kind).nodup

theorem Lists.isEmpty_eq_false (h : r.Lists xs) {kind : SectionKind} {s : Section}
    (hs : r.sections.get? kind = some s) : s.isEmpty = false := by
  have hused : kind ∈ r.sections.keys := by
    rw [Table.mem_keys_iff, Table.contains, hs]
    rfl
  obtain ⟨x, hx, hkind⟩ := h.used kind hused
  have hsection : r.sectionOf kind = s := by rw [sectionOf, hs, Option.getD_some]
  have hrow : x.row ∈ s.rows := by
    rw [← hsection, h.rows kind]
    exact List.mem_map_of_mem (List.mem_filter.mpr ⟨hx, by simpa using hkind⟩)
  rw [Table.isEmpty, List.isEmpty_eq_false_iff]
  exact List.ne_nil_of_mem hrow

/-! ### Runs -/

/-- What is accepted of a run is listed behind what was there. -/
theorem Lists.registerAll {done : List Registration} (h : r.Lists done)
    (xs : List Registration) :
    (r.registerAll xs).1.Lists (done ++ accepted xs (r.registerAll xs).2) := by
  induction xs generalizing r done with
  | nil => simpa [accepted, Registry.registerAll] using h
  | cons x xs ih =>
    have hstep := outcome_register r x
    rw [Registry.registerAll]
    rcases houtcome : (r.register x).2 with _ | p
    · rw [houtcome] at hstep
      simpa [accepted] using ih (h.append hstep.accepts)
    · rw [hstep.unchanged (by simp [houtcome])]
      simpa [accepted] using ih h

theorem registerAll_append (r : Registry) (xs ys : List Registration) :
    r.registerAll (xs ++ ys) = (((r.registerAll xs).1.registerAll ys).1,
      (r.registerAll xs).2 ++ ((r.registerAll xs).1.registerAll ys).2) := by
  induction xs generalizing r with
  | nil => rfl
  | cons x xs ih => simp only [List.cons_append, registerAll, ih]

theorem length_registerAll (r : Registry) (xs : List Registration) :
    (r.registerAll xs).2.length = xs.length := by
  induction xs generalizing r with
  | nil => rfl
  | cons x xs ih => simp only [registerAll, List.length_cons, ih]

theorem getElem?_registerAll (r : Registry) (before : List Registration) (x : Registration)
    (after : List Registration) :
    (r.registerAll (before ++ x :: after)).2[before.length]? =
      some ((r.registerAll before).1.register x).2 := by
  rw [registerAll_append, List.getElem?_append_right (Nat.le_of_eq (length_registerAll _ _)),
    length_registerAll, Nat.sub_self]
  rfl

theorem registerAll_fst_append_singleton (r : Registry) (before : List Registration)
    (x : Registration) :
    (r.registerAll (before ++ [x])).1 = ((r.registerAll before).1.register x).1 := by
  rw [registerAll_append]
  rfl

/-- Behind a run every section lists what was accepted for it, in that order: a name has the
    spelling, the value and the file of the first registration that was accepted for it.
    What a registration comes to depends on where its name is then found, and it changes
    the registry only if it is accepted. -/
theorem registerAll_first_wins (xs : List Registration) :
    let run := ({} : Registry).registerAll xs
    let done := accepted xs run.2
    run.2.length = xs.length ∧
    (∀ kind, (run.1.sectionOf kind).rows =
      (done.filter fun x => x.kind = kind).map Registration.row) ∧
    (∀ kind key, (run.1.sectionOf kind).find? key =
      (done.find? fun x => x.kind = kind ∧ Text.sameName x.key key).map Registration.entry) ∧
    (∀ kind, ((run.1.sectionOf kind).names.map Text.fold).Nodup) ∧
    (∀ kind s, run.1.sections.get? kind = some s → s.isEmpty = false) ∧
    ∀ before x after, xs = before ++ x :: after →
      let r := (({} : Registry).registerAll before).1
      ∃ outcome, run.2[before.length]? = some outcome ∧
        (outcome.map Problem.severity = some .collision ↔
          r.HasRival x ∨ ∃ e, (r.sectionOf x.kind).find? x.key = some e ∧ e.value ≠ x.value) ∧
        (outcome.map Problem.severity = some .omission ↔
          ¬ r.HasRival x ∧ ∃ e, (r.sectionOf x.kind).find? x.key = some e ∧ e.value = x.value) ∧
        (outcome = none ↔ ¬ r.HasRival x ∧ (r.sectionOf x.kind).find? x.key = none) ∧
        (outcome ≠ none → (({} : Registry).registerAll (before ++ [x])).1 = r) := by
  have hlists : (({} : Registry).registerAll xs).1.Lists
      (accepted xs (({} : Registry).registerAll xs).2) := lists_empty.registerAll xs
  refine ⟨length_registerAll _ _, hlists.rows, hlists.find?, hlists.nodup_names,
    fun kind s => hlists.isEmpty_eq_false, ?_⟩
  rintro before x after rfl
  have hstep := outcome_register (({} : Registry).registerAll before).1 x
  refine ⟨_, getElem?_registerAll _ before x after, hstep.collision_iff, hstep.omission_iff,
    hstep.accepted_iff, ?_⟩
  intro hrefused
  rw [registerAll_fst_append_singleton]
  exact hstep.unchanged hrefused

/-- A variable and a function of one name are kept apart, an entry point of that name is a
    collision, and the variable again, in another spelling, is an omission. -/
theorem registerAll_first_wins_spelling :
    let size : Registration := ⟨.variable, "$Size", "$Size = 1", some "a.ps1", []⟩
    let sizeFunction : Registration := ⟨.function, "$size", "2", none, [.entryPoint]⟩
    let sizeEntry : Registration := ⟨.entryPoint, "$SIZE", "3", none, [.function]⟩
    let again : Registration := ⟨.variable, "$size", "$Size = 1", some "b.ps1", []⟩
    let before := [size, sizeFunction, sizeEntry]
    let r := (({} : Registry).registerAll before).1
    (({} : Registry).registerAll (before ++ [again])).2.map (Option.map Problem.severity) =
      [none, none, some .collision, some .omission] ∧
    (r.sectionOf .variable).find? "$size" = some size.entry ∧
    (({} : Registry).registerAll (before ++ [again])).1 = r := by
  intro size sizeFunction sizeEntry again before r
  obtain ⟨-, -, -, -, -, hcalls⟩ := registerAll_first_wins (before ++ [again])
  obtain ⟨outcome, houtcome, -, -, haccepted, hunchanged⟩ := hcalls before again [] rfl
  have hfound : (r.sectionOf .variable).find? "$size" = some size.entry := by decide +kernel
  refine ⟨by decide +kernel, hfound, hunchanged ?_⟩
  intro hnone
  rw [(haccepted.mp hnone).2] at hfound
  exact nomatch hfound

end Registry
end ScriptModule
