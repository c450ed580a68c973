/-
  ScriptModule/Proofs/DeclaredClasses.lean
  ========================================
  **Declared classes.**  A draft keeps a class in two places, its text in the section of
  classes and its declaration under its folded name.  Both are written when a class is
  accepted and at no other time, so they agree behind every call, however it ended.  A
  module can therefore always be written, with every class that was accepted once, behind
  the classes that it is based on.
-/
import ScriptModule.Proofs.BasesFirst
import ScriptModule.Proofs.Exports
import ScriptModule.Proofs.MergedRequirement

namespace ScriptModule

/-! ### Tables side by side -/

namespace Table

variable {κ α β γ : Type} [DecidableEq κ]

theorem lookup_map (f : α → γ) (k : κ) (rows : List (κ × α)) :
    (rows.map fun r => (r.1, f r.2)).lookup k = (rows.lookup k).map f := by
  induction rows with
  | nil => rfl
  | cons r rows ih =>
    rw [List.map_cons, lookup_row, lookup_row, ih]
    split <;> rfl

/-- What two tables have the same rows of they have the same values of. -/
theorem get?_congr {s : Table κ α} {t : Table κ β} {f : α → γ} {g : β → γ}
    (h : (s.rows.map fun r => (r.1, f r.2)) = t.rows.map fun r => (r.1, g r.2)) (k : κ) :
    (s.get? k).map f = (t.get? k).map g := by
  rw [get?, get?, ← lookup_map, ← lookup_map, h]

/-- All keys of a table are found. -/
theorem mapM_get?_keys (t : Table κ α) : t.keys.mapM t.get? = some t.values := by
  calc t.keys.mapM t.get? = (t.keys.map t.get?).mapM id := by rw [List.mapM_map, Function.id_comp]
    _ = t.values.mapM some := by rw [map_get?_keys, List.mapM_map, Function.id_comp]
    _ = some t.values := (List.mapM_pure (f := id)).trans (by rw [List.map_id]; rfl)

end Table

/-! ### Contributions -/

/-- Whether a contribution defines nothing in the section of classes, unless it is a class. -/
def Contribution.IsNoHiddenClass (c : Contribution) : Prop :=
  ∀ key value rivals place, c ≠ .definition .classType key value rivals place

theorem Contribution.holdsFor_isNoHiddenClass : HoldsFor Intake.kinds IsNoHiddenClass where
  plain h := by
    rintro key value rivals place rfl
    cases h
  classType c text place := by
    rintro key value rivals place ⟨⟩
  definition kind hkind key value place := by
    rintro _ _ _ _ ⟨⟩
    exact absurd hkind (by decide)

namespace Draft

/-! ### What is accepted -/

/-- The class that a contribution brings in, if it is accepted. -/
def newClass? (d : Draft) : Contribution → Option DeclaredClass
  | .classType c text place =>
    if (d.registry.add .classType c.name text place.filename []).2.isNone then some ⟨c, text⟩
    else none
  | _ => none

/-- The classes that are accepted up to the first contribution that is refused. -/
def newClasses (d : Draft) : List Contribution → List DeclaredClass
  | [] => []
  | c :: cs =>
    match d.take c with
    | .error _ => []
    | .ok d' => (d.newClass? c).toList ++ d'.newClasses cs

/-- The classes that are accepted in the course of calls, in order. -/
def acceptedClasses (known : KnownAliases) (d : Draft) : List Call → List DeclaredClass
  | [] => []
  | c :: calls =>
    d.newClasses (c.contributions known) ++ (d.call known c).acceptedClasses known calls

/-! ### What can be rendered -/

/-- The classes are those of their section, in its order, and the version can be printed. -/
structure CanRender (d : Draft) : Prop where
  filed : ∀ r ∈ d.classes.rows, r.1 = Text.fold r.2.name
  rows : ((d.registry.sectionOf .classType).rows.map fun r => (r.1, r.2.key, r.2.value)) =
    d.classes.rows.map fun r => (r.1, r.2.name, r.2.text)
  version : ∀ v ∈ d.requirement.version, Version.IsShort v

variable {d d' : Draft}

theorem canRender_empty : ({} : Draft).CanRender := ⟨nofun, rfl, nofun⟩

theorem CanRender.keys (hd : d.CanRender) :
    (d.registry.sectionOf .classType).keys = d.classes.keys := by
  have h := congrArg (List.map Prod.fst) hd.rows
  simpa [Table.keys, List.map_map, Function.comp_def] using h

theorem CanRender.names (hd : d.CanRender) :
    (d.registry.sectionOf .classType).names = d.classes.values.map fun c => c.name := by
  have h := congrArg (List.map fun r => r.2.1) hd.rows
  simpa [Section.names, Section.entries, Table.values, List.map_map, Function.comp_def] using h

theorem CanRender.definitions (hd : d.CanRender) :
    (d.registry.sectionOf .classType).definitions = d.classes.values.map DeclaredClass.text := by
  have h := congrArg (List.map fun r => r.2.2) hd.rows
  simpa [Section.definitions, Section.entries, Table.values, List.map_map, Function.comp_def]
    using h

/-- A class is kept with the text and the spelling of its entry. -/
theorem CanRender.find? (hd : d.CanRender) (name : Text) :
    ((d.registry.sectionOf .classType).find? name).map (fun e => (e.key, e.value)) =
      (d.classes.get? (Text.fold name)).map fun c => (c.name, c.text) :=
  Table.get?_congr hd.rows (Text.fold name)

theorem CanRender.fold_names (hd : d.CanRender) :
    (d.classes.values.map fun c => Text.fold c.name) = d.classes.keys := by
  rw [Table.values, Table.keys, List.map_map]
  exact List.map_congr_left fun r hr => (hd.filed r hr).symm

theorem CanRender.namedClasses?_eq (hd : d.CanRender) :
    d.namedClasses? = some d.classes.values := by
  rw [namedClasses?, hd.names, List.mapM_map, ← Table.mapM_get?_keys, ← hd.fold_names,
    List.mapM_map]
  rfl

/-! ### One contribution -/

variable {c : Contribution}

theorem CanRender.congr (hd : d.CanRender) (hclasses : d'.classes = d.classes)
    (hsection : d'.registry.sectionOf .classType = d.registry.sectionOf .classType)
    (hversion : d'.requirement.version = d.requirement.version) : d'.CanRender := by
  obtain ⟨hfiled, hrows, hshort⟩ := hd
  constructor
  · rw [hclasses]
    exact hfiled
  · rw [hclasses, hsection]
    exact hrows
  · rw [hversion]
    exact hshort

/-- A class that is accepted becomes the last one in both places. -/
theorem CanRender.accept (hd : d.CanRender) {x : Registration} (hkind : x.kind = .classType)
    (hnew : (d.registry.sectionOf .classType).find? x.key = none) {new : DeclaredClass}
    (hname : new.name = x.key) (htext : new.text = x.value)
    (hregistry : d.registry.Accepts d'.registry x)
    (hclasses : d'.classes = d.classes.insert (Text.fold x.key) new)
    (hversion : d'.requirement.version = d.requirement.version) :
    d'.CanRender ∧ d'.classes.values = d.classes.values ++ [new] := by
  have hkey : Text.fold x.key ∉ d.classes.keys := by
    rw [← hd.keys]
    exact Table.not_mem_keys_of_get? hnew
  have hrows : d'.classes.rows = d.classes.rows ++ [(Text.fold x.key, new)] := by
    rw [hclasses]
    exact Table.rows_insert hkey new
  refine ⟨⟨?_, ?_, ?_⟩, ?_⟩
  · intro r hr
    rw [hrows] at hr
    rcases List.mem_append.mp hr with hr | hr
    · exact hd.filed r hr
    · rw [List.mem_singleton.mp hr, hname]
  · rw [hrows, ← hkind, hregistry.rows, List.map_append, List.map_append, hkind, hd.rows]
    simp [Registration.row, Registration.entry, hname, htext]
  · rw [hversion]
    exact hd.version
  · rw [Table.values, hrows, List.map_append]
    rfl

/-- Every contribution that is taken in keeps the two places the same, and adds the class
    that it brings in. -/
theorem CanRender.take (hd : d.CanRender) (hc : c.IsNoHiddenClass) (h : d.take c = .ok d') :
    d'.CanRender ∧ d'.classes.values = d.classes.values ++ (d.newClass? c).toList := by
  have hsame : d'.classes = d.classes →
      d'.registry.sectionOf .classType = d.registry.sectionOf .classType →
      d'.requirement.version = d.requirement.version → d.newClass? c = none →
      d'.CanRender ∧ d'.classes.values = d.classes.values ++ (d.newClass? c).toList := by
    intro hclasses hsection hversion hnone
    refine ⟨hd.congr hclasses hsection hversion, ?_⟩
    rw [hclasses, hnone, Option.toList_none, List.append_nil]
  cases c with
  | event e =>
    cases h
    exact hsame rfl rfl rfl rfl
  | warning r =>
    cases h
    exact hsame rfl rfl rfl rfl
  | fact f place =>
    simp only [Draft.take] at h
    split at h
    · next r hr =>
      cases h
      exact ⟨⟨hd.filed, hd.rows, Requirement.isShort_require hd.version hr⟩,
        (List.append_nil _).symm⟩
    · cases h
    · cases h
  | importing i place =>
    obtain ⟨hregistry, hclasses, hrequirement, -⟩ := judge_eq_ok h
    exact hsame hclasses (by rw [hregistry]) (by rw [hrequirement]) rfl
  | definition kind key value rivals place =>
    obtain ⟨hregistry, hclasses, hrequirement, -⟩ := judge_eq_ok h
    have hkind : SectionKind.classType ≠ kind := by
      rintro rfl
      exact hc key value rivals place rfl
    refine hsame hclasses ?_ (by rw [hrequirement]) rfl
    rw [hregistry]
    exact d.registry.sectionOf_register_of_ne ⟨kind, key, value, place.filename, rivals⟩ hkind
  | classType cls text place =>
    simp only [Draft.take] at h
    obtain ⟨hregistry, hclasses, hrequirement, -⟩ := judge_eq_ok h
    have hstep := d.registry.outcome_register
      ⟨.classType, cls.name, text, place.filename, []⟩
    unfold Registry.register at hstep
    unfold newClass? at hsame ⊢
    rcases hadd : d.registry.add .classType cls.name text place.filename [] with ⟨r', outcome⟩
    simp only [hadd] at hstep hregistry hclasses hsame ⊢
    rcases outcome with _ | p
    · have haccepts := hstep.accepts
      rw [← hregistry] at haccepts
      exact hd.accept rfl (hstep.accepted_iff.mp rfl).2 rfl rfl haccepts hclasses
        (by rw [hrequirement])
    · apply hsame hclasses ?_ (by rw [hrequirement]) rfl
      rw [hregistry, hstep.unchanged (Option.some_ne_none p)]
  | refusal f => cases h

/-! ### Runs -/

/-- The contributions that were taken in before one is refused keep the two places the
    same, too. -/
theorem CanRender.takeAll {cs : List Contribution} (hd : d.CanRender)
    (hcs : ∀ c ∈ cs, c.IsNoHiddenClass) :
    (d.takeAll cs).1.CanRender ∧
      (d.takeAll cs).1.classes.values = d.classes.values ++ d.newClasses cs := by
  induction cs generalizing d with
  | nil => exact ⟨hd, (List.append_nil _).symm⟩
  | cons c cs ih =>
    rw [List.forall_mem_cons] at hcs
    simp only [Draft.takeAll, newClasses]
    rcases htake : d.take c with f | d'
    · exact ⟨hd, (List.append_nil _).symm⟩
    · obtain ⟨hd', hvalues⟩ := hd.take hcs.1 htake
      obtain ⟨hend, hrest⟩ := ih hd' hcs.2
      refine ⟨hend, ?_⟩
      rw [hrest, hvalues, List.append_assoc]

theorem CanRender.callAll (hd : d.CanRender) (known : KnownAliases) (calls : List Call) :
    (d.callAll known calls).CanRender ∧
      (d.callAll known calls).classes.values =
        d.classes.values ++ d.acceptedClasses known calls := by
  induction calls generalizing d with
  | nil => exact ⟨hd, (List.append_nil _).symm⟩
  | cons c calls ih =>
    obtain ⟨hcall, hvalues⟩ :=
      hd.takeAll (c.forall_contributions Contribution.holdsFor_isNoHiddenClass known)
    rw [← call_eq] at hcall hvalues
    obtain ⟨hend, hrest⟩ := ih hcall
    refine ⟨hend, ?_⟩
    change ((d.call known c).callAll known calls).classes.values = _
    rw [hrest, hvalues, List.append_assoc]
    rfl

/-! ### The region of classes -/

theorem classRegion_infix (d : Draft) :
    regionOf "Class" "\n\n" d.classTexts <:+: d.regions := by
  unfold regions
  iterate 7 apply List.IsInfix.trans ?_ (List.prefix_append _ _).isInfix
  exact (List.suffix_append _ _).isInfix

/-- What was indented for nested lines is taken back behind them. -/
theorem dedent?_foldl_emit (b : Builder) (ls : List Text) :
    (ls.foldl Builder.emit b.indent).dedent? = some (b.emitNested ls) := by
  have hlevel : ∀ b : Builder, (ls.foldl Builder.emit b).level = b.level := by
    induction ls with
    | nil => exact fun _ => rfl
    | cons l ls ih => exact fun b => ih (b.emit l)
  have hindent : (ls.foldl Builder.emit b.indent).level = b.level + 1 := hlevel b.indent
  unfold Builder.dedent?
  rw [hindent]
  rfl

/-! ### Accepted classes are written -/

/-- Of classes with different names each one is a base of all that name it. -/
theorem isBase_of_name {classes : List DeclaredClass} {b c : DeclaredClass} {i j : Nat}
    (hnodup : (classes.map fun c => Text.fold c.name).Nodup) (hc : classes[i]? = some c)
    (hb : classes[j]? = some b) {base : Text} (hbase : base ∈ c.baseTypes)
    (hname : Text.fold b.name = ClassDef.baseKey base) :
    ClassDef.IsBase (classes.map DeclaredClass.toClassDef) i j := by
  refine ⟨c.toClassDef, b.toClassDef, base, ?_, hbase, ?_, hname, ?_⟩
  · rw [List.getElem?_map, hc, Option.map_some]
  · rw [List.getElem?_map, hb, Option.map_some]
  · intro k hk a ha heq
    have hj : j < (classes.map fun c => Text.fold c.name).length := by
      rw [List.length_map]
      exact (List.getElem?_eq_some_iff.mp hb).1
    apply List.nodup_iff_getElem?_ne_getElem?.mp hnodup k j hk hj
    rw [List.getElem?_map] at ha ⊢
    obtain ⟨a', ha', rfl⟩ := Option.map_eq_some_iff.mp ha
    rw [ha', List.getElem?_map, hb, Option.map_some, Option.map_some, hname]
    exact congrArg some heq

/-- **Every accepted class is written.**  Behind any calls, refused ones included, the
    section of classes and the classes kept have the same keys, spellings and texts.  So
    nothing can fail when the module is written: every class that the section names is
    found, the version can be printed, and what is indented is dedented again.  The region
    of classes has the text of each class that was accepted once, and a class that reaches
    no cycle stands behind all that it is based on. -/
theorem accepted_classes_rendered (known : KnownAliases) (calls : List Call) :
    let d := ({} : Draft).callAll known calls
    let classes := d.registry.sectionOf .classType
    let accepted := ({} : Draft).acceptedClasses known calls
    (classes.keys = d.classes.keys ∧ classes.keys = classes.names.map Text.fold ∧
      ∀ name, (classes.find? name).map (fun e => (e.key, e.value)) =
        (d.classes.get? (Text.fold name)).map fun c => (c.name, c.text)) ∧
    (d.namedClasses? = some accepted ∧ (∀ v ∈ d.requirement.version, Version.IsShort v) ∧
      ∀ (b : Builder) (ls : List Text),
        (ls.foldl Builder.emit b.indent).dedent? = some (b.emitNested ls)) ∧
    ((accepted.map fun c => Text.fold c.name).Nodup ∧ d.orderedClasses.Perm accepted ∧
      d.classTexts.Perm classes.definitions ∧
      regionOf "Class" "\n\n" d.classTexts <:+: d.regions) ∧
    ∀ i b c, accepted[i]? = some c → b ∈ accepted →
      (∃ base ∈ c.baseTypes, Text.fold b.name = ClassDef.baseKey base) →
      ¬ ClassDef.ReachesCycle (accepted.map DeclaredClass.toClassDef) i →
      [b, c].Sublist d.orderedClasses := by
  intro d classes accepted
  obtain ⟨hd, hvalues⟩ := canRender_empty.callAll known calls
  change d.classes.values = accepted at hvalues
  have hnamed : d.namedClasses? = some accepted := hvalues ▸ hd.namedClasses?_eq
  have hordered : d.orderedClasses = ClassDef.ordered accepted := by
    rw [orderedClasses, hnamed, Option.getD_some]
  have hperm : d.orderedClasses.Perm accepted := hordered ▸ ClassDef.ordered_perm accepted
  have hfolds : (accepted.map fun c => Text.fold c.name) = d.classes.keys :=
    hvalues ▸ hd.fold_names
  have hnodup : (accepted.map fun c => Text.fold c.name).Nodup := hfolds ▸ d.classes.nodup
  refine ⟨⟨hd.keys, ?_, hd.find?⟩, ⟨hnamed, hd.version, dedent?_foldl_emit⟩,
    ⟨hnodup, hperm, ?_, classRegion_infix d⟩, ?_⟩
  · rw [hd.keys, hd.names, List.map_map]
    exact hd.fold_names.symm
  · rw [hd.definitions, hvalues]
    exact hperm.map DeclaredClass.text
  · rintro i b c hc hb ⟨base, hbase, hname⟩ hacyclic
    obtain ⟨j, hj⟩ := List.mem_iff_getElem?.mp hb
    rw [hordered]
    exact ClassDef.sublist_ordered hj hc (isBase_of_name hnodup hc hj hbase hname) hacyclic

/-- The second file is refused in its second class, which is another one of the name of a
    base; what it declares in front of that is written. -/
theorem accepted_classes_rendered_refused :
    let script (name source : String) : Call := .file (.script source.toList name.toList none)
    let calls := [script "a.ps1" "class C : my.b \x7b \x7d\nclass B \x7b \x7d",
      script "b.ps1" "class D \x7b \x7d\nclass b \x7b [int] $x \x7d\nclass E \x7b \x7d"]
    let d := ({} : Draft).callAll Table.empty calls
    let b : DeclaredClass := ⟨⟨"B", []⟩, "class B \x7b \x7d"⟩
    let c : DeclaredClass := ⟨⟨"C", ["my.b"]⟩, "class C : my.b \x7b \x7d"⟩
    let e : DeclaredClass := ⟨⟨"D", []⟩, "class D \x7b \x7d"⟩
    d.namedClasses? = some [c, b, e] ∧ [b, c].Sublist d.orderedClasses := by
  intro script calls d b c e
  have haccepted : ({} : Draft).acceptedClasses Table.empty calls = [c, b, e] := by
    decide +kernel
  obtain ⟨-, ⟨hnamed, -⟩, -, hbases⟩ := accepted_classes_rendered Table.empty calls
  rw [haccepted] at hnamed hbases
  refine ⟨hnamed, hbases 0 b c rfl (by decide) ⟨"my.b", by decide, by decide +kernel⟩ ?_⟩
  let defs := [c, b, e].map DeclaredClass.toClassDef
  have hlocal : ClassDef.basesAt defs 0 = [1] ∧ ClassDef.basesAt defs 1 = [] := by
    decide +kernel
  apply ClassDef.not_reachesCycle_of_bases
  intro j hj
  rw [← ClassDef.mem_basesAt, hlocal.1] at hj
  obtain rfl := List.mem_singleton.mp hj
  apply ClassDef.not_reachesCycle_of_bases
  intro k hk
  rw [← ClassDef.mem_basesAt, hlocal.2] at hk
  exact nomatch hk

end Draft
end ScriptModule
