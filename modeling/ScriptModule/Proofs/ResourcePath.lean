/-
  ScriptModule/Proofs/ResourcePath.lean
  =====================================
  **Paths of resources.**  A module names a resource by the path that leads there from the
  module's directory.  Such a path begins with one parent component for every directory to
  be left and has none behind them, so together with the directory it gives the place of
  the resource back: from one directory two places never have the same path, and the text
  of a path gives the path back (`relativeText_injective`).
-/
import ScriptModule.Proofs.TextLaws
import ScriptModule.SourceTree

namespace ScriptModule

namespace Path

/-! ### Components -/

/-- A component that says something and lies between two slashes. -/
structure IsComponent (c : Text) : Prop where
  ne_nil : c ≠ []
  ne_dot : c ≠ ['.']
  no_slash : '/' ∉ c

/-- A component that leads downwards, as the names of entries do. -/
structure IsName (c : Text) : Prop extends IsComponent c where
  ne_parent : c ≠ ['.', '.']

instance (c : Text) : Decidable (IsComponent c) :=
  decidable_of_iff (c ≠ [] ∧ c ≠ ['.'] ∧ '/' ∉ c)
    ⟨fun h => ⟨h.1, h.2.1, h.2.2⟩, fun h => ⟨h.ne_nil, h.ne_dot, h.no_slash⟩⟩

instance (c : Text) : Decidable (IsName c) :=
  decidable_of_iff (IsComponent c ∧ c ≠ ['.', '.'])
    ⟨fun h => ⟨h.1, h.2⟩, fun h => ⟨h.toIsComponent, h.ne_parent⟩⟩

/-- A path as paths are read. -/
def IsRead (p : Path) : Prop := ∀ c ∈ p.parts, IsComponent c

instance (p : Path) : Decidable p.IsRead :=
  inferInstanceAs (Decidable (∀ c ∈ p.parts, IsComponent c))

/-- An absolute path with one leading slash and without parent components. -/
structure IsResolved (p : Path) : Prop where
  slashes : p.slashes = 1
  names : ∀ c ∈ p.parts, IsName c

theorem isComponent_parent : IsComponent ['.', '.'] :=
  ⟨by decide, by decide, by decide⟩

theorem isRead_ofText (t : Text) : (ofText t).IsRead := by
  intro c hc
  obtain ⟨hfield, hkept⟩ := List.mem_filter.mp hc
  rw [Bool.and_eq_true, decide_eq_true_eq, decide_eq_true_eq] at hkept
  refine ⟨hkept.1, hkept.2, ?_⟩
  intro hslash
  have hplain := Text.not_mem_fieldsBy hfield '/' hslash
  cases hplain

theorem IsRead.append {dir p : Path} (hdir : dir.IsRead) (hp : p.IsRead) :
    (dir.append p).IsRead := by
  rw [Path.append]
  split
  · exact List.forall_mem_append.mpr ⟨hdir, hp⟩
  · exact hp

/-- Parent components are gone once they are resolved. -/
theorem names_climb {parts cs : List Text} (hparts : ∀ c ∈ parts, IsName c)
    (hcs : ∀ c ∈ cs, IsComponent c) : ∀ c ∈ cs.foldl climb parts, IsName c := by
  induction cs generalizing parts with
  | nil => exact hparts
  | cons c cs ih =>
    rw [List.forall_mem_cons] at hcs
    refine ih ?_ hcs.2
    unfold climb
    split
    · exact fun d hd => hparts d (List.dropLast_subset parts hd)
    · next hne =>
      rw [List.forall_mem_append]
      refine ⟨hparts, fun d hd => ?_⟩
      obtain rfl := List.mem_singleton.mp hd
      exact ⟨hcs.1, hne⟩

theorem isResolved_resolve {cwd p : Path} (hcwd : cwd.IsRead) (hp : p.IsRead) :
    (resolve cwd p).IsResolved :=
  ⟨rfl, names_climb nofun (hcwd.append hp)⟩

/-! ### The text of a path -/

theorem toText_relative {c : Text} {cs : List Text} (hc : c ≠ []) :
    toText ⟨0, c :: cs⟩ = Text.join "/" (c :: cs) := by
  have hjoin : Text.join "/" (c :: cs) ≠ [] := by
    rw [Text.join_cons]
    exact fun hnil => hc (List.append_eq_nil_iff.mp hnil).1
  unfold toText
  exact if_neg (by rwa [List.isEmpty_iff])

/-- The text of a relative path is read as that path. -/
theorem ofText_toText {cs : List Text} (h : ∀ c ∈ cs, IsComponent c) :
    ofText (toText ⟨0, cs⟩) = ⟨0, cs⟩ := by
  cases cs with
  | nil => decide
  | cons c cs =>
    obtain ⟨hc, hcs⟩ := List.forall_mem_cons.mp h
    have hleading : leading (Text.join "/" (c :: cs)) = 0 := by
      rw [Text.join_cons]
      obtain ⟨a, t, rfl⟩ := List.exists_cons_of_ne_nil hc.ne_nil
      have ha : a ≠ '/' := fun hslash => hc.no_slash (hslash ▸ List.mem_cons_self)
      simp [leading, ha]
    have hfields : Text.fields '/' (Text.join "/" (c :: cs)) = c :: cs := by
      have hjoin : Text.fields '/' (Text.join ['/'] (c :: cs)) = c :: cs.map ([] ++ ·) :=
        Text.fields_join List.not_mem_nil hc.no_slash fun u hu => (hcs u hu).no_slash
      simpa using hjoin
    have hkept : (c :: cs).filter (fun p => p ≠ [] && p ≠ ['.']) = c :: cs := by
      rw [List.filter_eq_self]
      intro d hd
      simp [(h d hd).ne_nil, (h d hd).ne_dot]
    rw [toText_relative hc.ne_nil, ofText, hleading, hfields, hkept]

/-! ### Relative paths -/

theorem afterCommon_eq (as bs : List Text) :
    ∃ common, as = common ++ (afterCommon as bs).1 ∧ bs = common ++ (afterCommon as bs).2 := by
  fun_induction afterCommon as bs with
  | case1 as b bs ih =>
    obtain ⟨common, has, hbs⟩ := ih
    exact ⟨b :: common, congrArg (b :: ·) has, congrArg (b :: ·) hbs⟩
  | case2 a as b bs hne => exact ⟨[], rfl, rfl⟩
  | case3 as bs hne => exact ⟨[], rfl, rfl⟩

/-- The components in front of which there are only parent components are told from them. -/
theorem replicate_append_inj {α : Type} {x : α} {m n : Nat} {as bs : List α} (has : x ∉ as)
    (hbs : x ∉ bs) (h : List.replicate m x ++ as = List.replicate n x ++ bs) :
    m = n ∧ as = bs := by
  classical
  have hcount := congrArg (List.count x) h
  simp only [List.count_append, List.count_replicate_self, List.count_eq_zero_of_not_mem has,
    List.count_eq_zero_of_not_mem hbs, Nat.add_zero] at hcount
  subst hcount
  exact ⟨rfl, List.append_cancel_left h⟩

theorem relativeTo_parts (base p : Path) :
    ∃ common up down, base.parts = common ++ up ∧ p.parts = common ++ down ∧
      (relativeTo base p) = ⟨0, List.replicate up.length ['.', '.'] ++ down⟩ := by
  obtain ⟨common, hbase, hp⟩ := afterCommon_eq base.parts p.parts
  refine ⟨common, _, _, hbase, hp, ?_⟩
  rw [← List.map_const']
  rfl

theorem relativeTo_injective {base p q : Path} (hp : p.IsResolved) (hq : q.IsResolved)
    (h : relativeTo base p = relativeTo base q) : p = q := by
  obtain ⟨common, up, down, hbase, hpparts, hprel⟩ := relativeTo_parts base p
  obtain ⟨common', up', down', hbase', hqparts, hqrel⟩ := relativeTo_parts base q
  have hdown : ['.', '.'] ∉ down := fun hmem =>
    (hp.names _ (hpparts ▸ List.mem_append_right common hmem)).ne_parent rfl
  have hdown' : ['.', '.'] ∉ down' := fun hmem =>
    (hq.names _ (hqparts ▸ List.mem_append_right common' hmem)).ne_parent rfl
  rw [hprel, hqrel, Path.mk.injEq] at h
  obtain ⟨hlength, rfl⟩ := replicate_append_inj hdown hdown' h.2
  obtain ⟨rfl, -⟩ := List.append_inj' (hbase.symm.trans hbase') hlength
  obtain ⟨slashes, parts⟩ := p
  obtain ⟨slashes', parts'⟩ := q
  rw [Path.mk.injEq]
  exact ⟨hp.slashes.trans hq.slashes.symm, hpparts.trans hqparts.symm⟩

theorem isRead_relativeTo (base : Path) {p : Path} (hp : p.IsResolved) :
    (relativeTo base p).IsRead := by
  obtain ⟨common, up, down, -, hpparts, hrel⟩ := relativeTo_parts base p
  rw [hrel]
  refine List.forall_mem_append.mpr ⟨fun c hc => ?_, fun c hc => ?_⟩
  · rw [List.eq_of_mem_replicate hc]
    exact isComponent_parent
  · exact (hp.names c (hpparts ▸ List.mem_append_right common hc)).toIsComponent

/-- From one directory no two places have relative paths of one text. -/
theorem relativeText_injective {base p q : Path} (hp : p.IsResolved) (hq : q.IsResolved)
    (h : (relativeTo base p).toText = (relativeTo base q).toText) : p = q := by
  apply relativeTo_injective hp hq
  have hread : ∀ {r : Path}, r.IsResolved →
      ofText (relativeTo base r).toText = relativeTo base r := by
    intro r hr
    exact ofText_toText (isRead_relativeTo base hr)
  rw [← hread hp, ← hread hq, h]

end Path

/-! ### Names on the disk -/

namespace Listing

/-- All entries in and below a directory have names. -/
def IsNamed : Listing → Prop
  | .nil => True
  | .file n _ r => Path.IsName n ∧ r.IsNamed
  | .directory n d r => Path.IsName n ∧ d.IsNamed ∧ r.IsNamed

instance decidableIsNamed : (l : Listing) → Decidable l.IsNamed
  | .nil => isTrue trivial
  | .file n _ r =>
    have := decidableIsNamed r
    inferInstanceAs (Decidable (Path.IsName n ∧ r.IsNamed))
  | .directory n d r =>
    have := decidableIsNamed d
    have := decidableIsNamed r
    inferInstanceAs (Decidable (Path.IsName n ∧ d.IsNamed ∧ r.IsNamed))

theorem IsNamed.find? {l d : Listing} {n : Text} (h : l.IsNamed)
    (hfind : l.find? n = some (.directory d)) : d.IsNamed := by
  induction l with
  | nil => cases hfind
  | file m c r ih =>
    rw [Listing.find?] at hfind
    split at hfind
    · cases hfind
    · exact ih h.2 hfind
  | directory m e r _ ih =>
    rw [Listing.find?] at hfind
    split at hfind
    · cases hfind
      exact h.2.1
    · exact ih h.2.2 hfind

theorem IsNamed.node? {l d : Listing} {place : List Text} (h : l.IsNamed)
    (hnode : l.node? place = some (.directory d)) : d.IsNamed := by
  induction place generalizing l with
  | nil =>
    cases hnode
    exact h
  | cons n ns ih =>
    rw [Listing.node?] at hnode
    split at hnode
    · exact ih (h.find? ‹_›) hnode
    · split at hnode <;> cases hnode
    · cases hnode

theorem names_visible {l : Listing} (h : l.IsNamed) (depth : Nat) :
    ∀ place ∈ l.visible depth, ∀ c ∈ place, Path.IsName c := by
  fun_induction visible l depth with
  | case1 => exact nofun
  | case2 n c r depth hhidden ih => exact ih h.2
  | case3 n c r depth hhidden ih =>
    refine List.forall_mem_cons.mpr ⟨fun d hd => ?_, ih h.2⟩
    obtain rfl := List.mem_singleton.mp hd
    exact h.1
  | case4 n d r ih => exact ih h.2.2
  | case5 n d r depth ihd ihr =>
    refine List.forall_mem_append.mpr ⟨?_, ihr h.2.2⟩
    split
    · exact nofun
    · intro place hplace
      obtain ⟨below, hbelow, rfl⟩ := List.mem_map.mp hplace
      exact List.forall_mem_cons.mpr ⟨h.1, ihd h.2.1 below hbelow⟩

end Listing

/-- The entries on a disk have names, and its working directory is a path as read. -/
structure Disk.IsNamed (d : Disk) : Prop where
  root : d.root.IsNamed
  cwd : d.cwd.IsRead

theorem Disk.IsNamed.directory {d : Disk} {p : Path} {l : Listing} (h : d.IsNamed)
    (hdir : d.directory? p = .ok (some l)) : l.IsNamed := by
  unfold directory? node at hdir
  split at hdir
  · next hnode =>
    cases hdir
    split at hnode
    · cases hnode
    · split at hnode
      · cases hnode
        exact h.root.node? ‹_›
      · cases hnode
  · cases hdir
  · cases hdir

/-- The paths of resources below a root name the places of the resources. -/
theorem SourceTree.isResolved_of_scan {d : Disk} {root : Path} {maxDepth : Option Int}
    {t : SourceTree} (hd : d.IsNamed) (hroot : root.IsRead)
    (h : scan d root maxDepth = .ok (some t)) :
    ∀ f ∈ t.formats, (d.resolve (root.append f)).IsResolved := by
  unfold scan at h
  split at h
  · cases h
  · cases h
  · cases h
  · next l n hdir =>
    cases h
    intro f hf
    have hplace := (List.mem_filter.mp hf).1
    simp only [ofListing, sorted, List.mem_mergeSort, List.mem_map, List.mem_filter] at hplace
    obtain ⟨place, ⟨hvisible, -⟩, rfl⟩ := hplace
    refine Path.isResolved_resolve hd.cwd (hroot.append ?_)
    intro c hc
    exact (Listing.names_visible (hd.directory hdir) _ place hvisible c hc).toIsComponent

end ScriptModule
