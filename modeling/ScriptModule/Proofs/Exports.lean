/-
  ScriptModule/Proofs/Exports.lean
  ================================
  **What a module exports.**  However a draft was made, also by calls that were refused on
  the way, no exported function is a private one too, and every alias stands for an entry
  point that is there.  The aliases are exported in groups, one for each entry point, in the
  order in which the entry points were declared and, in a group, the aliases.
-/
import ScriptModule.Artifact.Module
import ScriptModule.Proofs.KeyedSort
import ScriptModule.Proofs.Sections
import ScriptModule.Proofs.TextLaws

namespace ScriptModule

/-! ### Calls -/

/-- One thing that is given to a draft: a statement, an entry point, a script that is taken
    as an entry point, or a file. -/
inductive Call where
  | statement (s : Statement)
  | entryPoint (e : EntryPoint)
  | entrySource (source filename : Text)
  | file (i : Intake)

def Call.contributions (known : KnownAliases) : Call → List Contribution
  | .statement s => s.contributions
  | .entryPoint e => e.contributions
  | .entrySource source filename =>
    match Script.ofSource (some filename) source with
    | .error r => [.refusal (.report r)]
    | .ok sc => sc.entryContributions known filename
  | .file i => i.contributions known

namespace Draft

/-- The draft behind a call, whether the call went through or was refused on the way. -/
def call (known : KnownAliases) (d : Draft) : Call → Draft
  | .statement s => (d.addStatement s).1
  | .entryPoint e => (d.addEntryPoint e).1
  | .entrySource source filename => (d.addEntrySource known source filename).1
  | .file i => (d.ingest known i).1

def callAll (known : KnownAliases) (d : Draft) (calls : List Call) : Draft :=
  calls.foldl (call known) d

theorem addEntry_fst (d : Draft) (name : Text) (cs : List Contribution) :
    (d.addEntry name cs).1 = (d.takeAll cs).1 := by
  rcases h : d.takeAll cs with ⟨d', _ | f⟩ <;> simp [addEntry, h]

theorem call_eq (known : KnownAliases) (d : Draft) (c : Call) :
    d.call known c = (d.takeAll (c.contributions known)).1 := by
  cases c with
  | statement s =>
    simp only [call, addStatement, Call.contributions]
    rcases d.takeAll s.contributions with ⟨d', _ | f⟩ <;> rfl
  | entryPoint e => exact addEntry_fst d e.name e.contributions
  | entrySource source filename =>
    simp only [call, addEntrySource, Call.contributions]
    rcases Script.ofSource (some filename) source with r | sc
    · rfl
    · exact addEntry_fst d _ _
  | file i => exact congrArg Prod.fst (ingest_eq_takeAll known d i)

end Draft

theorem Call.forall_contributions {P : Contribution → Prop}
    (h : Contribution.HoldsFor Intake.kinds P) (known : KnownAliases) (c : Call) :
    ∀ e ∈ c.contributions known, P e := by
  cases c with
  | statement s => exact s.forall_contributions h.scripts.statements
  | entryPoint e => exact e.forall_contributions h.scripts
  | entrySource source filename =>
    simp only [contributions]
    split
    · exact List.forall_mem_singleton.mpr (h.plain rfl)
    · exact Script.forall_entryContributions h.scripts known filename _
  | file i => exact i.forall_contributions h known

theorem Call.allStandard_contributions (known : KnownAliases) (c : Call) :
    AllStandard (c.contributions known) :=
  c.forall_contributions (Contribution.holdsFor_isStandard _) known

/-! ### Names of entry points -/

theorem EntryPoint.render_eq_append (e : EntryPoint) :
    e.render = "function ".toList ++ (e.name ++ (" \x7b\n".toList ++ e.body ++ "\n\x7d".toList)) := by
  delta render
  simp only [List.append_assoc]

/-- Of entry points with one text, names that differ are no spellings of one name. -/
theorem EntryPoint.name_eq_of_render {d e : EntryPoint} (h : d.render = e.render)
    (hfold : Text.fold d.name = Text.fold e.name) : d.name = e.name := by
  rw [render_eq_append, render_eq_append] at h
  have hbehind := List.append_cancel_left h
  have hd := List.prefix_append d.name (" \x7b\n".toList ++ d.body ++ "\n\x7d".toList)
  rw [hbehind] at hd
  rcases List.prefix_or_prefix_of_prefix hd (List.prefix_append e.name _) with hpre | hpre
  · exact Text.eq_of_prefix_of_fold hpre hfold
  · exact (Text.eq_of_prefix_of_fold hpre hfold.symm).symm

/-! ### What every draft keeps -/

namespace Draft

def HasEntry (d : Draft) (name : Text) : Prop :=
  ∃ e ∈ (d.registry.sectionOf .entryPoint).entries, e.key = name

/-- Every entry is filed under its name, no function is an entry point too, the entry
    points are wrapped under their names, and every alias stands for one of them. -/
structure IsSound (d : Draft) : Prop where
  filed : ∀ kind, ∀ r ∈ (d.registry.sectionOf kind).rows, r.1 = Text.fold r.2.key
  apart : ∀ f ∈ (d.registry.sectionOf .function).rows,
    ∀ e ∈ (d.registry.sectionOf .entryPoint).rows, f.1 ≠ e.1
  wrapped : ∀ e ∈ (d.registry.sectionOf .entryPoint).entries,
    ∃ p : EntryPoint, p.name = e.key ∧ p.render = e.value
  aimed : ∀ a ∈ (d.registry.sectionOf .aliasName).entries, d.HasEntry a.value

theorem mem_entries {s : Section} {e : Entry} : e ∈ s.entries ↔ ∃ k, (k, e) ∈ s.rows := by
  constructor
  · intro h
    obtain ⟨⟨k, e'⟩, hrow, rfl⟩ := List.mem_map.mp h
    exact ⟨k, hrow⟩
  · rintro ⟨k, hrow⟩
    exact List.mem_map.mpr ⟨(k, e), hrow, rfl⟩

/-- A contribution that keeps the aliases aimed: what it declares as an entry point is
    wrapped under its name, and the alias that it declares stands for something there. -/
structure IsAimed (d : Draft) (c : Contribution) : Prop where
  standard : c.IsStandard
  wrapped : ∀ e, c.entry? = some (.entryPoint, e) →
    ∃ p : EntryPoint, p.name = e.key ∧ p.render = e.value
  aimed : ∀ e, c.entry? = some (.aliasName, e) → d.HasEntry e.value

variable {d d' : Draft} {c : Contribution}

theorem mem_rows_take (hc : c.IsStandard) (h : d.take c = .ok d') {kind : SectionKind}
    {row : Text × Entry} (hrow : row ∈ (d.registry.sectionOf kind).rows) :
    row ∈ (d'.registry.sectionOf kind).rows := by
  have hstep := registry_take hc h
  rcases hentry : c.entry? with _ | ⟨k, e⟩ <;> simp only [hentry] at hstep
  · rw [hstep]
    exact hrow
  · exact hstep.mem hrow

theorem HasEntry.take {name : Text} (hname : d.HasEntry name) (hc : c.IsStandard)
    (h : d.take c = .ok d') : d'.HasEntry name := by
  obtain ⟨e, he, rfl⟩ := hname
  obtain ⟨k, hrow⟩ := mem_entries.mp he
  exact ⟨e, mem_entries.mpr ⟨k, mem_rows_take hc h hrow⟩, rfl⟩

/-- A step that declares an entry point, in whichever spelling it goes through, has it. -/
theorem hasEntry_take (hd : d.IsSound) (hc : d.IsAimed c) (h : d.take c = .ok d') {e : Entry}
    (hentry : c.entry? = some (.entryPoint, e)) : d'.HasEntry e.key := by
  have hstep := registry_take hc.standard h
  simp only [hentry] at hstep
  rcases hstep.outcome with ⟨hsame, old, hfind, hvalue⟩ | ⟨-, -, hrows⟩
  · have hrow := Table.mem_rows_of_get? hfind
    have hold : old ∈ (d.registry.sectionOf .entryPoint).entries := mem_entries.mpr ⟨_, hrow⟩
    obtain ⟨p, hp, hprender⟩ := hd.wrapped old hold
    obtain ⟨q, hq, hqrender⟩ := hc.wrapped e hentry
    have hfold : Text.fold q.name = Text.fold p.name := by
      rw [hq, hp]
      exact hd.filed .entryPoint _ hrow
    have hname : p.name = q.name :=
      EntryPoint.name_eq_of_render (by rw [hprender, hqrender, hvalue]) hfold.symm
    exact ⟨old, by rw [hsame]; exact hold, by rw [← hp, hname, hq]⟩
  · refine ⟨e, mem_entries.mpr ⟨Text.fold e.key, ?_⟩, rfl⟩
    rw [hrows]
    simp

/-- A row whose name is looked up in vain does not have it. -/
theorem ne_fold_of_find? {s : Section} {name : Text} (h : s.find? name = none)
    {row : Text × Entry} (hrow : row ∈ s.rows) : row.1 ≠ Text.fold name := by
  intro heq
  have hfound : s.get? row.1 = some row.2 := Table.get?_of_mem_rows hrow
  rw [heq] at hfound
  exact nomatch h.symm.trans hfound

/-- Every step keeps a draft sound. -/
theorem IsSound.take (hd : d.IsSound) (hc : d.IsAimed c) (h : d.take c = .ok d') :
    d'.IsSound := by
  have hkeep : ∀ {name}, d.HasEntry name → d'.HasEntry name :=
    fun hname => hname.take hc.standard h
  have hstep := registry_take hc.standard h
  rcases hentry : c.entry? with _ | ⟨kind, e⟩ <;> simp only [hentry] at hstep
  · refine ⟨?_, ?_, ?_, ?_⟩ <;> rw [hstep]
    · exact hd.filed
    · exact hd.apart
    · exact hd.wrapped
    · exact fun a ha => hkeep (hd.aimed a ha)
  · refine ⟨?_, ?_, ?_, ?_⟩
    · intro k row hrow
      rcases hstep.cases hrow with hrow | ⟨-, rfl⟩
      · exact hd.filed k row hrow
      · rfl
    · intro f hf p hp
      rcases hstep.cases hf with hf | ⟨rfl, rfl⟩ <;> rcases hstep.cases hp with hp | ⟨hkind, rfl⟩
      · exact hd.apart f hf p hp
      · subst hkind
        exact ne_fold_of_find? (hstep.free .function (by decide)) hf
      · exact (ne_fold_of_find? (hstep.free .entryPoint (by decide)) hp).symm
      · cases hkind
    · intro p hp
      obtain ⟨k, hrow⟩ := mem_entries.mp hp
      rcases hstep.cases hrow with hrow | ⟨rfl, heq⟩
      · exact hd.wrapped p (mem_entries.mpr ⟨k, hrow⟩)
      · cases heq
        exact hc.wrapped e hentry
    · intro a ha
      obtain ⟨k, hrow⟩ := mem_entries.mp ha
      rcases hstep.cases hrow with hrow | ⟨rfl, heq⟩
      · exact hkeep (hd.aimed a (mem_entries.mpr ⟨k, hrow⟩))
      · cases heq
        exact hkeep (hc.aimed e hentry)

theorem isSound_empty : ({} : Draft).IsSound := by
  have hempty : ∀ kind, (({} : Draft).registry.sectionOf kind).rows = [] := fun _ => rfl
  refine ⟨fun kind r hr => ?_, fun f hf => ?_, fun e he => ?_, fun a ha => ?_⟩
  · rw [hempty] at hr
    cases hr
  · rw [hempty] at hf
    cases hf
  · cases he
  · cases ha

/-! ### Runs -/

/-- Whether a row of contributions keeps drafts sound, wherever it breaks off. -/
def KeepsSound (cs : List Contribution) : Prop :=
  ∀ d : Draft, d.IsSound → (d.takeAll cs).1.IsSound

theorem KeepsSound.append {cs es : List Contribution} (hcs : KeepsSound cs)
    (hes : KeepsSound es) : KeepsSound (cs ++ es) := by
  intro d hd
  rw [takeAll_append]
  have hfront := hcs d hd
  rcases htake : d.takeAll cs with ⟨d', _ | f⟩ <;> rw [htake] at hfront
  · exact hes d' hfront
  · exact hfront

/-- Contributions of other kinds than entry points and aliases. -/
def IsPlain (c : Contribution) : Prop :=
  c.IsStandard ∧ ∀ e, c.entry? ≠ some (.entryPoint, e) ∧ c.entry? ≠ some (.aliasName, e)

theorem isPlain_of_none {c : Contribution} (h : c.definition? = none) : IsPlain c := by
  refine ⟨Contribution.isStandard_of_none h, fun e => ?_⟩
  rw [Contribution.entry?_of_none h]
  exact ⟨(Option.some_ne_none _).symm, (Option.some_ne_none _).symm⟩

theorem isPlain_definition {kind : SectionKind} (hentry : kind ≠ .entryPoint)
    (halias : kind ≠ .aliasName) (key value : Text) (place : Place) :
    IsPlain (.definition kind key value kind.rivals place) := by
  refine ⟨Contribution.isStandard_definition kind key value place, fun e => ⟨?_, ?_⟩⟩
  · rintro ⟨⟩
    exact hentry rfl
  · rintro ⟨⟩
    exact halias rfl

theorem IsPlain.isAimed (h : IsPlain c) (d : Draft) : d.IsAimed c :=
  ⟨h.1, fun e he => absurd he (h.2 e).1, fun e he => absurd he (h.2 e).2⟩

theorem keepsSound_of_plain {cs : List Contribution} (h : ∀ c ∈ cs, IsPlain c) :
    KeepsSound cs := by
  induction cs with
  | nil => exact fun d hd => hd
  | cons c cs ih =>
    rw [List.forall_mem_cons] at h
    intro d hd
    simp only [takeAll]
    rcases htake : d.take c with f | d'
    · exact hd
    · exact ih h.2 d' (hd.take (h.1.isAimed d) htake)

/-- Behind an entry point that is there, its aliases are aimed. -/
theorem isSound_aliases {cs : List Contribution} {name : Text}
    (h : ∀ c ∈ cs, c.IsStandard ∧ ∃ e, c.entry? = some (.aliasName, e) ∧ e.value = name)
    (hd : d.IsSound) (hname : d.HasEntry name) : (d.takeAll cs).1.IsSound := by
  induction cs generalizing d with
  | nil => exact hd
  | cons c cs ih =>
    rw [List.forall_mem_cons] at h
    obtain ⟨⟨hstandard, e, hentry, rfl⟩, hmore⟩ := h
    have haimed : d.IsAimed c := by
      refine ⟨hstandard, fun p hp => ?_, fun a ha => ?_⟩
      · rw [hentry] at hp
        cases hp
      · rw [hentry] at ha
        cases ha
        exact hname
    simp only [takeAll]
    rcases htake : d.take c with f | d'
    · exact hd
    · exact ih hmore (hd.take haimed htake) (hname.take hstandard htake)

end Draft

open Draft

theorem Contribution.holdsFor_isPlain : HoldsFor Statement.kinds IsPlain where
  plain := isPlain_of_none
  classType c text place :=
    ⟨(holdsFor_isStandard Statement.kinds).classType c text place, fun e => by
      constructor <;> rintro ⟨⟩⟩
  definition kind hkind := by
    apply isPlain_definition
    · rintro rfl
      exact absurd hkind (by decide)
    · rintro rfl
      exact absurd hkind (by decide)

theorem Statement.isPlain_contributions (s : Statement) : ∀ c ∈ s.contributions, IsPlain c :=
  s.forall_contributions Contribution.holdsFor_isPlain

theorem EntryPoint.keepsSound_contributions (e : EntryPoint) : KeepsSound e.contributions := by
  refine KeepsSound.append (keepsSound_of_plain fun c hc => ?_) ?_
  · obtain ⟨s, -, hc⟩ := List.mem_flatMap.mp hc
    exact s.isPlain_contributions c hc
  · intro d hd
    have haimed : d.IsAimed (.definition .entryPoint e.name e.render [.function]
        ⟨e.filename, e.span.map Span.startLine, none, some e.body⟩) := by
      refine ⟨Contribution.isStandard_definition .entryPoint _ _ _, fun p hp => ?_, nofun⟩
      cases hp
      exact ⟨e, rfl, rfl⟩
    simp only [takeAll]
    rcases htake : d.take _ with f | d'
    · exact hd
    · refine isSound_aliases (fun c hc => ?_) (hd.take haimed htake)
        (hasEntry_take hd haimed htake rfl)
      obtain ⟨a, -, rfl⟩ := List.mem_map.mp hc
      exact ⟨Contribution.isStandard_definition .aliasName _ _ _, _, rfl, rfl⟩

namespace Draft

theorem keepsSound_refusal (f : Failure) : KeepsSound [.refusal f] := fun _ hd => hd

theorem KeepsSound.event {cs : List Contribution} (h : KeepsSound cs) (e : LogEvent) :
    KeepsSound (.event e :: cs) := by
  have hevent : KeepsSound [.event e] := keepsSound_of_plain fun c hc => by
    obtain rfl := List.mem_singleton.mp hc
    exact isPlain_of_none rfl
  exact KeepsSound.append hevent h

end Draft

theorem Script.keepsSound_entryContributions (known : KnownAliases) (filename : Text)
    (sc : Script) : KeepsSound (sc.entryContributions known filename) := by
  unfold entryContributions
  split
  · exact keepsSound_refusal _
  · refine KeepsSound.append (keepsSound_of_plain fun c hc => ?_)
      (EntryPoint.keepsSound_contributions _)
    obtain ⟨r, -, rfl⟩ := List.mem_map.mp hc
    exact isPlain_of_none rfl

theorem Script.keepsSound_statementContributions (filename : Text) (sc : Script) :
    KeepsSound (sc.statementContributions filename) := by
  unfold statementContributions
  split
  · exact keepsSound_refusal _
  · refine KeepsSound.event (keepsSound_of_plain fun c hc => ?_) _
    obtain ⟨s, -, hc⟩ := List.mem_flatMap.mp hc
    exact s.isPlain_contributions c hc

theorem Intake.keepsSound_contributions (known : KnownAliases) (i : Intake) :
    KeepsSound (i.contributions known) := by
  cases i with
  | script source filename position =>
    simp only [contributions, sourceContributions]
    refine KeepsSound.event ?_ _
    split
    · exact keepsSound_refusal _
    · split
      · exact (Script.keepsSound_entryContributions known filename _).event _
      · exact Script.keepsSound_statementContributions filename _
  | format document filename resource =>
    simp only [contributions]
    split
    · exact keepsSound_refusal _
    · refine keepsSound_of_plain fun c hc => ?_
      rcases List.mem_append.mp hc with hc | hc
      · obtain ⟨v, -, rfl⟩ := List.mem_map.mp hc
        exact isPlain_definition (by decide) (by decide) _ _ _
      · obtain rfl := List.mem_singleton.mp hc
        exact isPlain_of_none rfl

/-- A sound draft is sound behind every call. -/
theorem Draft.IsSound.call {d : Draft} (hd : d.IsSound) (known : KnownAliases) (c : Call) :
    (d.call known c).IsSound := by
  have hkeeps : KeepsSound (c.contributions known) := by
    cases c with
    | statement s => exact keepsSound_of_plain s.isPlain_contributions
    | entryPoint e => exact e.keepsSound_contributions
    | entrySource source filename =>
      simp only [Call.contributions]
      split
      · exact keepsSound_refusal _
      · exact Script.keepsSound_entryContributions known filename _
    | file i => exact i.keepsSound_contributions known
  rw [call_eq]
  exact hkeeps d hd

theorem Draft.isSound_callAll (known : KnownAliases) (calls : List Call) :
    (({} : Draft).callAll known calls).IsSound := by
  have hrun : ∀ {d : Draft}, d.IsSound → (d.callAll known calls).IsSound := by
    intro d hd
    induction calls generalizing d with
    | nil => exact hd
    | cons c calls ih => exact ih (hd.call known c)
  exact hrun isSound_empty

/-! ### In the order of declaration -/

/-- The entries that calls declare in a section, in order. -/
def declared (known : KnownAliases) (kind : SectionKind) (calls : List Call) : List Entry :=
  (calls.flatMap (Call.contributions known)).filterMap (Contribution.entryOf kind)

/-- A section holds declared entries, in the order in which they were declared. -/
theorem Draft.entries_callAll (known : KnownAliases) (kind : SectionKind) (calls : List Call) :
    ((({} : Draft).callAll known calls).registry.sectionOf kind).entries.Sublist
      (declared known kind calls) := by
  have hrun : ∀ d : Draft, ∃ new, new.Sublist (declared known kind calls) ∧
      ((d.callAll known calls).registry.sectionOf kind).entries =
        (d.registry.sectionOf kind).entries ++ new := by
    intro d
    induction calls generalizing d with
    | nil => exact ⟨[], List.nil_sublist _, (List.append_nil _).symm⟩
    | cons c calls ih =>
      obtain ⟨first, hfirst, hd⟩ :=
        entries_takeAll (Call.allStandard_contributions known c) d kind
      obtain ⟨more, hmore, hrest⟩ := ih (d.call known c)
      refine ⟨first ++ more, ?_, ?_⟩
      · rw [declared, List.flatMap_cons, List.filterMap_append]
        exact hfirst.append hmore
      · change (((d.call known c).callAll known calls).registry.sectionOf kind).entries = _
        rw [hrest, call_eq, hd, List.append_assoc]
  obtain ⟨new, hnew, hentries⟩ := hrun {}
  rw [hentries]
  exact hnew

/-! ### Sorting by rank -/

section

variable {α : Type} {rank : α → Nat}

theorem filter_rank_succ {xs : List α} (h : xs.Pairwise fun a b => rank a ≤ rank b) (n : Nat) :
    xs.filter (rank · < n + 1) = xs.filter (rank · < n) ++ xs.filter (rank · = n) := by
  induction xs with
  | nil => rfl
  | cons a xs ih =>
    rw [List.pairwise_cons] at h
    -- nothing behind `a` has a smaller rank than `a`
    have hnone : n ≤ rank a → xs.filter (rank · < n) = [] := by
      intro hn
      rw [List.filter_eq_nil_iff]
      intro b hb hlt
      exact Nat.not_lt.mpr (Nat.le_trans hn (h.1 b hb)) (of_decide_eq_true hlt)
    simp only [List.filter_cons, decide_eq_true_eq, ih h.2]
    rcases Nat.lt_trichotomy (rank a) n with hlt | heq | hgt
    · rw [if_pos (Nat.lt_succ_of_lt hlt), if_pos hlt, if_neg (Nat.ne_of_lt hlt),
        List.cons_append]
    · rw [if_pos (heq ▸ Nat.lt_succ_self n), if_neg (Nat.not_lt.mpr heq.ge), if_pos heq,
        hnone heq.ge, List.nil_append, List.nil_append]
    · rw [if_neg (Nat.not_lt.mpr hgt), if_neg (Nat.not_lt_of_gt hgt),
        if_neg (Nat.ne_of_gt hgt)]

/-- What is sorted by rank falls into groups of one rank each. -/
theorem eq_flatMap_rank {xs : List α} (h : xs.Pairwise fun a b => rank a ≤ rank b) {n : Nat}
    (hn : ∀ a ∈ xs, rank a < n) :
    xs = (List.range n).flatMap fun i => xs.filter (rank · = i) := by
  have hgroups : ∀ m, xs.filter (rank · < m) =
      (List.range m).flatMap fun i => xs.filter (rank · = i) := by
    intro m
    induction m with
    | zero => simp
    | succ m ih =>
      rw [filter_rank_succ h, ih, List.range_succ, List.flatMap_append, List.flatMap_singleton]
  rw [← hgroups, List.filter_eq_self.mpr fun a ha => by simpa using hn a ha]

theorem pairwise_rank (xs : List α) :
    (xs.mergeSort fun a b => rank a ≤ rank b).Pairwise fun a b => rank a ≤ rank b :=
  (pairwise_mergeSort_key rank (fun _ _ => decide_eq_true_iff) xs).imp of_decide_eq_true

/-- A sort by rank keeps the order of what has one rank. -/
theorem filter_mergeSort (xs : List α) (i : Nat) :
    (xs.mergeSort fun a b => rank a ≤ rank b).filter (rank · = i) = xs.filter (rank · = i) := by
  have hgroup : (xs.filter (rank · = i)).Pairwise fun a b => decide (rank a ≤ rank b) = true := by
    rw [List.pairwise_iff_forall_sublist]
    intro a b hab
    have ha := (List.mem_filter.mp (hab.subset (List.mem_cons_self))).2
    have hb := (List.mem_filter.mp (hab.subset (List.mem_cons_of_mem _ List.mem_cons_self))).2
    simp only [decide_eq_true_eq] at ha hb ⊢
    omega
  have hrank : ∀ a b, decide (rank a ≤ rank b) = true ↔ rank a ≤ rank b :=
    fun _ _ => decide_eq_true_iff
  have hsub := (List.sublist_mergeSort (le_trans_key rank hrank) (le_total_key rank hrank) hgroup
    List.filter_sublist).filter (fun a => decide (rank a = i))
  simp only [List.filter_filter, Bool.and_self] at hsub
  refine (hsub.eq_of_length ?_).symm
  exact ((List.mergeSort_perm xs _).filter _).length_eq.symm

end

/-! ### Groups of aliases -/

namespace Draft

variable {d : Draft}

/-- The keys of a section are its names, folded. -/
theorem IsSound.fold_names (hd : d.IsSound) (kind : SectionKind) :
    (d.registry.sectionOf kind).names.map Text.fold = (d.registry.sectionOf kind).keys := by
  simp only [Section.names, Section.entries, Table.values, Table.keys, List.map_map]
  apply List.map_congr_left
  intro r hr
  exact (hd.filed kind r hr).symm

theorem IsSound.nodup_folds (hd : d.IsSound) : (d.exportedFunctions.map Text.fold).Nodup := by
  rw [exportedFunctions, hd.fold_names .entryPoint]
  exact (d.registry.sectionOf .entryPoint).nodup

/-- The rank of an exported function is its place among them. -/
theorem IsSound.targetRank_eq (hd : d.IsSound) {i : Nat} (hi : i < d.exportedFunctions.length) :
    d.targetRank d.exportedFunctions[i] = i := by
  rw [targetRank, List.findIdx_eq hi]
  refine ⟨by simp [Text.sameName], fun j hji => ?_⟩
  have hj : j < d.exportedFunctions.length := Nat.lt_trans hji hi
  have hne := List.nodup_iff_pairwise_ne.mp hd.nodup_folds
  rw [List.pairwise_iff_getElem] at hne
  have hpair := hne j i (by simpa using hj) (by simpa using hi) hji
  rw [List.getElem_map, List.getElem_map] at hpair
  simpa [Text.sameName] using hpair

/-- Every alias has a rank among the exported functions. -/
theorem IsSound.exists_rank (hd : d.IsSound) {a : Entry}
    (ha : a ∈ (d.registry.sectionOf .aliasName).entries) :
    ∃ i, ∃ hi : i < d.exportedFunctions.length, d.exportedFunctions[i] = a.value := by
  obtain ⟨e, he, hkey⟩ := hd.aimed a ha
  exact List.getElem_of_mem (hkey ▸ List.mem_map_of_mem he)

/-- Aliases are sorted into groups, one for each exported function. -/
theorem IsSound.aliases_eq (hd : d.IsSound) : d.aliases =
    d.exportedFunctions.flatMap fun f =>
      (d.registry.sectionOf .aliasName).entries.filter (·.value = f) := by
  let rank : Entry → Nat := fun a => d.targetRank a.value
  have hsorted : d.aliases.Pairwise fun a b => rank a ≤ rank b := pairwise_rank _
  have hbound : ∀ a ∈ d.aliases, rank a < d.exportedFunctions.length := by
    intro a ha
    obtain ⟨i, hi, hvalue⟩ := hd.exists_rank (List.mem_mergeSort.mp ha)
    change d.targetRank a.value < _
    rw [← hvalue, hd.targetRank_eq hi]
    exact hi
  have hnames : d.exportedFunctions =
      (List.range d.exportedFunctions.length).map fun i => d.exportedFunctions.getD i [] := by
    apply List.ext_getElem
    · simp
    · intro i hi _
      simp [hi]
  rw [eq_flatMap_rank hsorted hbound]
  conv_rhs => rw [hnames, List.flatMap_map]
  refine List.flatMap_congr fun i hi => ?_
  have hi := List.mem_range.mp hi
  rw [aliases, filter_mergeSort]
  refine List.filter_congr fun a ha => ?_
  obtain ⟨j, hj, hvalue⟩ := hd.exists_rank ha
  have hrank : rank a = j := by
    change d.targetRank a.value = j
    rw [← hvalue, hd.targetRank_eq hj]
  have hget : d.exportedFunctions.getD i [] = d.exportedFunctions[i] := by simp [hi]
  rw [hrank, hget, ← hvalue]
  by_cases hji : j = i
  · subst hji
    simp
  · have hne : d.exportedFunctions[j] ≠ d.exportedFunctions[i] := by
      intro heq
      have hsame := congrArg d.targetRank heq
      rw [hd.targetRank_eq hj, hd.targetRank_eq hi] at hsame
      exact hji hsame
    simp [hji, hne]

theorem find?_eq_none {s : Section} {name : Text}
    (h : ∀ row ∈ s.rows, row.1 ≠ Text.fold name) : s.find? name = none := by
  rcases hfind : s.find? name with _ | e
  · rfl
  · exact absurd rfl (h _ (Table.mem_rows_of_get? hfind))

/-- **Exports are sound.**  Behind any calls, refused ones included, no name is a function
    and an entry point; so no exported function is a private one.  Every alias stands for an
    entry point, and the exported aliases are those of the first exported function, then
    those of the second, and so on, each group in the order of its section.  Sections list
    what was declared in the order of the declarations. -/
theorem exports_sound (known : KnownAliases) (calls : List Call) :
    let d := ({} : Draft).callAll known calls
    let functions := d.registry.sectionOf .function
    let entryPoints := d.registry.sectionOf .entryPoint
    let aliases := d.registry.sectionOf .aliasName
    (∀ name, functions.find? name = none ∨ entryPoints.find? name = none) ∧
    (∀ a ∈ aliases.entries, ∃ e ∈ entryPoints.entries, e.key = a.value) ∧
    (∀ f ∈ d.exportedFunctions, functions.find? f = none) ∧
    (∀ a ∈ aliases.entries, d.targetRank a.value < d.exportedFunctions.length) ∧
    d.exportedAliases.Perm aliases.names ∧
    (d.aliases = d.exportedFunctions.flatMap fun f => aliases.entries.filter (·.value = f)) ∧
    ∀ kind, (d.registry.sectionOf kind).entries.Sublist (declared known kind calls) := by
  intro d functions entryPoints aliases
  have hd : d.IsSound := isSound_callAll known calls
  have happart : ∀ name, functions.find? name = none ∨ entryPoints.find? name = none := by
    intro name
    rcases hfind : functions.find? name with _ | f
    · exact .inl rfl
    · refine .inr (find?_eq_none fun e he heq => ?_)
      exact hd.apart _ (Table.mem_rows_of_get? hfind) e he heq.symm
  refine ⟨happart, hd.aimed, ?_, ?_, ?_, hd.aliases_eq, fun kind => entries_callAll known kind calls⟩
  · intro f hf
    obtain ⟨e, he, rfl⟩ := List.mem_map.mp hf
    obtain ⟨k, hrow⟩ := mem_entries.mp he
    obtain rfl : k = Text.fold e.key := hd.filed .entryPoint _ hrow
    rcases happart e.key with hnone | hnone
    · exact hnone
    · exact absurd rfl (ne_fold_of_find? hnone hrow)
  · intro a ha
    obtain ⟨i, hi, hvalue⟩ := hd.exists_rank ha
    rw [← hvalue, hd.targetRank_eq hi]
    exact hi
  · exact (List.mergeSort_perm _ _).map Entry.key

/-- Two entry points, of which the second is refused for an alias that the first one has:
    it is exported all the same, with the alias that it declared in front of that one. -/
theorem exports_sound_refused :
    let script (name source : String) : Call := .file (.script source.toList name.toList none)
    let calls := [script "Get-B.ps1" "[Alias('x', 'y')]\nparam()",
      script "Get-A.ps1" "[Alias('u', 'X')]\nparam()"]
    let d := ({} : Draft).callAll Table.empty calls
    d.exportedFunctions = ["Get-B".toList, "Get-A".toList] ∧
      d.exportedAliases = ["x".toList, "y".toList, "u".toList] := by
  intro script calls d
  have hfunctions : d.exportedFunctions = ["Get-B".toList, "Get-A".toList] := by decide +kernel
  have hentries : (d.registry.sectionOf .aliasName).entries =
      [⟨"x", "Get-B", some "Get-B.ps1"⟩, ⟨"y", "Get-B", some "Get-B.ps1"⟩,
        ⟨"u", "Get-A", some "Get-A.ps1"⟩] := by
    decide +kernel
  obtain ⟨-, -, -, -, -, hgroups, -⟩ := exports_sound Table.empty calls
  refine ⟨hfunctions, ?_⟩
  change d.aliases = _ at hgroups
  rw [exportedAliases, hgroups, hfunctions]
  change ((["Get-B".toList, "Get-A".toList].flatMap fun f =>
    (d.registry.sectionOf .aliasName).entries.filter (·.value = f)).map Entry.key) = _
  rw [hentries]
  decide +kernel

end Draft

end ScriptModule
