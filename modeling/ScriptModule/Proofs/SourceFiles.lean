/-
  ScriptModule/Proofs/SourceFiles.lean
  ====================================
  **Finding source files.**  A search takes exactly the files that stand at most a number of
  directories below its root, with no hidden name on the way, in directories whose paths the
  system takes, and tells scripts and format resources by the folded ends of their names.
  Each file comes once, and all of them in a strict order by folded path, then by path; so
  the order in which the directories list their entries makes no difference (`scan_exact`).

  What a search takes is a filter of all files of a listing (`visible_eq_filter`), which a
  rearrangement of the listing only permutes (`Reordered.perm_places`).
-/
import Mathlib.Data.Prod.Lex
import ScriptModule.Proofs.KeyedSort
import ScriptModule.Proofs.ResourcePath

namespace ScriptModule

namespace Listing

/-! ### The files of a listing -/

/-- The places of all files in and below a directory. -/
def places (l : Listing) : List (List Text) := l.files.map Prod.fst

@[simp] theorem places_nil : Listing.nil.places = [] := rfl

@[simp] theorem places_file (n : Text) (c : Bytes) (r : Listing) :
    (Listing.file n c r).places = [n] :: r.places := rfl

@[simp] theorem places_directory (n : Text) (d r : Listing) :
    (Listing.directory n d r).places = d.places.map (n :: ·) ++ r.places := by
  simp [places, files]

theorem ne_nil_of_mem_places {l : Listing} {place : List Text} (h : place ∈ l.places) :
    place ≠ [] := by
  induction l with
  | nil => cases h
  | file n c r ih =>
    rw [places_file, List.mem_cons] at h
    rcases h with rfl | h
    · exact List.cons_ne_nil n []
    · exact ih h
  | directory n d r _ ih =>
    rw [places_directory, List.mem_append, List.mem_map] at h
    rcases h with ⟨below, -, rfl⟩ | h
    · exact List.cons_ne_nil n below
    · exact ih h

/-- A place of a file begins with the name of an entry. -/
theorem find?_of_mem_places {l : Listing} {n : Text} {ns : List Text}
    (h : n :: ns ∈ l.places) : l.find? n ≠ none := by
  induction l with
  | nil => cases h
  | file m c r ih =>
    rw [find?]
    split
    · exact Option.some_ne_none _
    · next hne =>
      rw [places_file, List.mem_cons, List.cons.injEq] at h
      apply ih
      exact h.resolve_left fun hsame => hne hsame.1.symm
  | directory m d r _ ih =>
    rw [find?]
    split
    · exact Option.some_ne_none _
    · next hne =>
      rw [places_directory, List.mem_append, List.mem_map] at h
      apply ih
      apply h.resolve_left
      rintro ⟨below, -, hsame⟩
      exact hne (List.cons.inj hsame).1

/-- In every directory all entries have different names. -/
def IsDistinct : Listing → Prop
  | .nil => True
  | .file n _ r => r.find? n = none ∧ r.IsDistinct
  | .directory n d r => r.find? n = none ∧ d.IsDistinct ∧ r.IsDistinct

instance decidableIsDistinct : (l : Listing) → Decidable l.IsDistinct
  | .nil => isTrue trivial
  | .file n _ r =>
    have := decidableIsDistinct r
    inferInstanceAs (Decidable (r.find? n = none ∧ r.IsDistinct))
  | .directory n d r =>
    have := decidableIsDistinct d
    have := decidableIsDistinct r
    inferInstanceAs (Decidable (r.find? n = none ∧ d.IsDistinct ∧ r.IsDistinct))

theorem nodup_places {l : Listing} (h : l.IsDistinct) : l.places.Nodup := by
  induction l with
  | nil => exact List.nodup_nil
  | file n c r ih =>
    rw [places_file, List.nodup_cons]
    exact ⟨fun hmem => find?_of_mem_places hmem h.1, ih h.2⟩
  | directory n d r ihd ihr =>
    rw [places_directory, List.nodup_append]
    refine ⟨List.Nodup.map (fun _ _ hsame => (List.cons.inj hsame).2) (ihd h.2.1), ihr h.2.2, ?_⟩
    intro a ha b hb hsame
    obtain ⟨below, -, rfl⟩ := List.mem_map.mp ha
    exact find?_of_mem_places (hsame ▸ hb) h.1

def IsFile (l : Listing) (place : List Text) : Prop := ∃ c, l.node? place = some (.file c)

theorem not_isFile_nil (l : Listing) : ¬ l.IsFile [] := nofun

theorem isFile_cons {l : Listing} {n : Text} {ns : List Text} :
    l.IsFile (n :: ns) ↔ (ns = [] ∧ ∃ c, l.find? n = some (.file c)) ∨
      ∃ d, l.find? n = some (.directory d) ∧ d.IsFile ns := by
  unfold IsFile
  rw [node?]
  split <;> simp [*]

/-- The places of the files are where a file is found. -/
theorem mem_places {l : Listing} (h : l.IsDistinct) (place : List Text) :
    place ∈ l.places ↔ l.IsFile place := by
  induction l generalizing place with
  | nil =>
    cases place with
    | nil => simp [not_isFile_nil]
    | cons m ms => simp [isFile_cons, find?]
  | file n c r ih =>
    rw [places_file, List.mem_cons, ih h.2]
    cases place with
    | nil => simp [not_isFile_nil]
    | cons m ms =>
      by_cases hm : n = m
      · subst hm
        simp [isFile_cons, find?, h.1]
      · simp [isFile_cons, find?, hm, Ne.symm hm]
  | directory n d r ihd ihr =>
    rw [places_directory, List.mem_append, ihr h.2.2]
    cases place with
    | nil => simp [not_isFile_nil]
    | cons m ms =>
      by_cases hm : n = m
      · subst hm
        simp [isFile_cons, find?, h.1, ihd h.2.1]
      · simp [isFile_cons, find?, hm]

/-! ### The files that are shown -/

/-- Whether no name of a place is hidden and it lies at most `depth` directories deep. -/
def isShown (depth : Nat) (place : List Text) : Bool :=
  place.all (fun n => !isHidden n) && decide (place.length ≤ depth + 1)

theorem isShown_cons (depth : Nat) (n : Text) (place : List Text) :
    isShown (depth + 1) (n :: place) = (!isHidden n && isShown depth place) := by
  simp [isShown, Bool.and_assoc]

theorem visible_eq_filter (l : Listing) (depth : Nat) :
    l.visible depth = l.places.filter (isShown depth) := by
  fun_induction visible l depth with
  | case1 => rfl
  | case2 n c r depth hhidden ih =>
    rw [ih, places_file, List.filter_cons_of_neg (by simp [isShown, hhidden])]
  | case3 n c r depth hshown ih =>
    rw [ih, places_file, List.filter_cons_of_pos (by simp [isShown, hshown])]
  | case4 n d r ih =>
    have hdeep : (d.places.map (n :: ·)).filter (isShown 0) = [] := by
      rw [List.filter_eq_nil_iff]
      intro place hplace
      obtain ⟨below, hbelow, rfl⟩ := List.mem_map.mp hplace
      simp [isShown, ne_nil_of_mem_places hbelow]
    rw [ih, places_directory, List.filter_append, hdeep, List.nil_append]
  | case5 n d r depth ihd ihr =>
    have hbelow : isShown (depth + 1) ∘ (n :: ·) =
        fun place => !isHidden n && isShown depth place :=
      funext fun place => isShown_cons depth n place
    rw [places_directory, List.filter_append, List.filter_map, hbelow, ihr, ihd]
    by_cases hhidden : isHidden n <;> simp [hhidden]

/-- A file that no hidden name leads to, with the directories that lead there. -/
structure Shows (l : Listing) (depth : Nat) (dirs : List Text) (name : Text) : Prop where
  isFile : l.IsFile (dirs ++ [name])
  noDot : ∀ n ∈ dirs ++ [name], n.head? ≠ some '.'
  near : dirs.length ≤ depth

theorem mem_visible {l : Listing} (h : l.IsDistinct) (depth : Nat) (dirs : List Text)
    (name : Text) : dirs ++ [name] ∈ l.visible depth ↔ l.Shows depth dirs name := by
  rw [visible_eq_filter, List.mem_filter, mem_places h, isShown, Bool.and_eq_true, List.all_eq_true,
    decide_eq_true_eq, List.length_append, List.length_singleton]
  constructor
  · rintro ⟨hfile, hshown, hdepth⟩
    refine ⟨hfile, ?_, Nat.le_of_succ_le_succ hdepth⟩
    intro n hn
    simpa [isHidden] using hshown n hn
  · intro hshows
    refine ⟨hshows.isFile, ?_, Nat.succ_le_succ hshows.near⟩
    intro n hn
    simpa [isHidden] using hshows.noDot n hn

/-! ### Other orders of the entries -/

/-- A listing whose directories have the same entries in some other order. -/
inductive Reordered : Listing → Listing → Prop where
  | nil : Reordered .nil .nil
  | file (n : Text) (c : Bytes) {r r' : Listing} :
      Reordered r r' → Reordered (.file n c r) (.file n c r')
  | directory (n : Text) {d d' r r' : Listing} :
      Reordered d d' → Reordered r r' → Reordered (.directory n d r) (.directory n d' r')
  | swap (m n : Text) (x y : Node) (r : Listing) :
      Reordered (cons m (cons n r y) x) (cons n (cons m r x) y)
  | trans {a b c : Listing} : Reordered a b → Reordered b c → Reordered a c

theorem places_cons (n : Text) (r : Listing) (x : Node) :
    (cons n r x).places = (cons n .nil x).places ++ r.places := by
  cases x <;> simp [cons]

theorem Reordered.perm_places {l l' : Listing} (h : l.Reordered l') :
    l.places.Perm l'.places := by
  induction h with
  | nil => exact List.Perm.nil
  | file n c _ ih => exact ih.cons [n]
  | directory n _ _ ihd ihr =>
    rw [places_directory, places_directory]
    exact (ihd.map _).append ihr
  | swap m n x y r =>
    rw [places_cons m, places_cons n r, places_cons n (cons m r x), places_cons m r]
    exact List.perm_append_comm_assoc ..
  | trans _ _ ihab ihbc => exact ihab.trans ihbc

end Listing

namespace SourceTree

/-! ### The order of source files -/

/-- What source files are ordered by: the folded path, then the path. -/
def orderKey (p : Path) : Text ×ₗ Text := toLex (Text.fold p.toText, p.toText)

theorem le_iff (p q : Path) : le p q = true ↔ orderKey p ≤ orderKey q := by
  rw [orderKey, orderKey, Prod.Lex.toLex_le_toLex, le]
  by_cases hsame : Text.fold p.toText = Text.fold q.toText
  · simp [hsame, Text.le_iff]
  · simp [hsame, Text.le_iff, lt_iff_le_and_ne]

theorem orderKey_inj {as bs : List Text} (ha : ∀ c ∈ as, Path.IsName c)
    (hb : ∀ c ∈ bs, Path.IsName c) (h : orderKey ⟨0, as⟩ = orderKey ⟨0, bs⟩) : as = bs := by
  have htext : Path.toText ⟨0, as⟩ = Path.toText ⟨0, bs⟩ := congrArg (·.2) (toLex.injective h)
  have hread := congrArg Path.ofText htext
  rw [Path.ofText_toText fun c hc => (ha c hc).toIsComponent,
    Path.ofText_toText fun c hc => (hb c hc).toIsComponent] at hread
  exact congrArg Path.parts hread

theorem nodup_orderKeys {places : List (List Text)}
    (hnames : ∀ place ∈ places, ∀ c ∈ place, Path.IsName c) (hnodup : places.Nodup) :
    ((places.map (Path.mk 0)).map orderKey).Nodup := by
  rw [List.map_map]
  apply List.Nodup.map_on ?_ hnodup
  intro a ha b hb
  exact orderKey_inj (hnames a ha) (hnames b hb)

theorem mem_sorted {places : List (List Text)} {f : Path} :
    f ∈ sorted places ↔ ∃ place ∈ places, Path.mk 0 place = f := by
  rw [sorted, List.mem_mergeSort, List.mem_map]

/-! ### What a search takes -/

/-- The visible files whose names meet a condition. -/
def chosen (l : Listing) (depth : Nat) (p : Text → Bool) : List (List Text) :=
  (l.visible depth).filter fun place => p (place.getLast?.getD [])

/-- The files of a search whose names meet a condition. -/
def found (root : Path) (l : Listing) (depth : Nat) (p : Text → Bool) : List Path :=
  (sorted (chosen l depth p)).filter fun f => !(searchPath root f.parent).isTooLong

theorem scan_eq {d : Disk} {root : Path} {l : Listing} (hdir : d.directory? root = .ok (some l))
    (depth : Nat) : scan d root (some depth) =
      .ok (some ⟨found root l depth isScript, found root l depth isFormat⟩) := by
  unfold scan
  rw [hdir]
  rfl

theorem hasSuffix_iff {suffix name : Text} :
    hasSuffix suffix name = true ↔ suffix <:+ Text.fold name := by
  rw [hasSuffix, List.isSuffixOf_iff_suffix]

theorem isScript_iff {name : Text} : isScript name = true ↔
    ".ps1".toList <:+ Text.fold name ∧ ¬ ".tests.ps1".toList <:+ Text.fold name := by
  rw [isScript, Bool.and_eq_true, Bool.not_eq_true', ← Bool.not_eq_true, hasSuffix_iff,
    hasSuffix_iff]

section Found

variable {root : Path} {l l' : Listing} {depth : Nat} {p : Text → Bool}

theorem mem_chosen (h : l.IsDistinct) {dirs : List Text} {name : Text} :
    dirs ++ [name] ∈ chosen l depth p ↔ l.Shows depth dirs name ∧ p name = true := by
  rw [chosen, List.mem_filter, Listing.mem_visible h, List.getLast?_concat, Option.getD_some]

theorem exists_of_mem_chosen {place : List Text} (h : place ∈ chosen l depth p) :
    ∃ dirs name, place = dirs ++ [name] := by
  rw [chosen, Listing.visible_eq_filter] at h
  have hplace := List.mem_of_mem_filter (List.mem_of_mem_filter h)
  exact (List.eq_nil_or_concat' place).resolve_left (Listing.ne_nil_of_mem_places hplace)

theorem mem_found (h : l.IsDistinct) {f : Path} : f ∈ found root l depth p ↔
    ∃ dirs name, f = ⟨0, dirs ++ [name]⟩ ∧ l.Shows depth dirs name ∧
      Utf8.size (searchPath root ⟨0, dirs⟩).toText < pathLimit ∧ p name = true := by
  have hnear : ∀ q : Path, (!q.isTooLong) = true ↔ Utf8.size q.toText < pathLimit := by
    intro q
    simp [Path.isTooLong]
  rw [found, List.mem_filter, hnear, mem_sorted]
  constructor
  · rintro ⟨⟨place, hplace, rfl⟩, hreach⟩
    obtain ⟨dirs, name, rfl⟩ := exists_of_mem_chosen hplace
    obtain ⟨hshows, hname⟩ := (mem_chosen h).mp hplace
    refine ⟨dirs, name, rfl, hshows, ?_, hname⟩
    simpa [Path.parent] using hreach
  · rintro ⟨dirs, name, rfl, hshows, hreach, hname⟩
    refine ⟨⟨dirs ++ [name], (mem_chosen h).mpr ⟨hshows, hname⟩, rfl⟩, ?_⟩
    simpa [Path.parent] using hreach

/-- Different files have different keys. -/
theorem nodup_keys_chosen (hnamed : l.IsNamed) (hdistinct : l.IsDistinct) :
    (((chosen l depth p).map (Path.mk 0)).map orderKey).Nodup := by
  apply nodup_orderKeys
  · intro place hplace
    exact Listing.names_visible hnamed depth place (List.mem_of_mem_filter hplace)
  · rw [chosen, Listing.visible_eq_filter]
    exact ((Listing.nodup_places hdistinct).filter _).filter _

theorem pairwise_found (hnamed : l.IsNamed) (hdistinct : l.IsDistinct) :
    (found root l depth p).Pairwise fun f g => orderKey f < orderKey g := by
  apply List.Pairwise.filter
  exact pairwise_lt_mergeSort orderKey le_iff (nodup_keys_chosen hnamed hdistinct)

theorem perm_chosen (h : l.Reordered l') : (chosen l depth p).Perm (chosen l' depth p) := by
  rw [chosen, chosen, Listing.visible_eq_filter, Listing.visible_eq_filter]
  exact (h.perm_places.filter _).filter _

theorem found_reordered (hnamed : l.IsNamed) (hdistinct : l.IsDistinct) (h : l.Reordered l') :
    found root l depth p = found root l' depth p := by
  have hsorted : sorted (chosen l depth p) = sorted (chosen l' depth p) := by
    apply mergeSort_eq_of_perm orderKey le_iff (nodup_keys_chosen hnamed hdistinct)
    exact (perm_chosen h).map _
  rw [found, found, hsorted]

end Found

/-- **A search takes exactly the source files, in one order.**  It ends for every directory.
    A script is a file at most `depth` directories below the root, with a visible name and
    visible directories, whose directory the system can be asked about, and whose folded name
    ends in `.ps1` and not in `.tests.ps1`; a format resource is one that ends in
    `.format.ps1xml` instead.  They come in strictly increasing order, and another order of
    the entries in the directories changes nothing. -/
theorem scan_exact (d : Disk) (root : Path) (l : Listing) (depth : Nat)
    (hdir : d.directory? root = .ok (some l)) (hnamed : l.IsNamed) (hdistinct : l.IsDistinct) :
    ∃ t, scan d root (some depth) = .ok (some t) ∧
      (∀ f, f ∈ t.scripts ↔ ∃ dirs name, f = ⟨0, dirs ++ [name]⟩ ∧ l.Shows depth dirs name ∧
        Utf8.size (searchPath root ⟨0, dirs⟩).toText < pathLimit ∧
        ".ps1".toList <:+ Text.fold name ∧ ¬ ".tests.ps1".toList <:+ Text.fold name) ∧
      (∀ f, f ∈ t.formats ↔ ∃ dirs name, f = ⟨0, dirs ++ [name]⟩ ∧ l.Shows depth dirs name ∧
        Utf8.size (searchPath root ⟨0, dirs⟩).toText < pathLimit ∧
        ".format.ps1xml".toList <:+ Text.fold name) ∧
      (t.scripts.Pairwise fun f g => orderKey f < orderKey g) ∧
      (t.formats.Pairwise fun f g => orderKey f < orderKey g) ∧
      ∀ d' l', d'.directory? root = .ok (some l') → l.Reordered l' →
        scan d' root (some depth) = .ok (some t) := by
  refine ⟨_, scan_eq hdir depth, ?_, ?_, pairwise_found hnamed hdistinct,
    pairwise_found hnamed hdistinct, ?_⟩
  · intro f
    simp only [mem_found hdistinct, isScript_iff]
  · intro f
    simp only [mem_found hdistinct, isFormat, hasSuffix_iff]
  · intro d' l' hdir' hreordered
    rw [scan_eq hdir', found_reordered hnamed hdistinct hreordered,
      found_reordered hnamed hdistinct hreordered]

/-- A directory with a script in another case, listed in two orders. -/
theorem scan_exact_cases :
    let lib : Listing := .file "A.PS1" [] (.file "a.tests.ps1" [] .nil)
    let l : Listing := .file "b.ps1" [] (.directory "lib" lib .nil)
    let l' : Listing := .directory "lib" lib (.file "b.ps1" [] .nil)
    let disk (src : Listing) : Disk := ⟨.directory "src" src .nil, ⟨1, []⟩, [], [], fun _ => none⟩
    ∃ t, scan (disk l) ⟨0, ["src"]⟩ (some 1) = .ok (some t) ∧
      scan (disk l') ⟨0, ["src"]⟩ (some 1) = .ok (some t) ∧
      ⟨0, ["lib", "A.PS1"]⟩ ∈ t.scripts := by
  intro lib l l' disk
  obtain ⟨t, hscan, hscripts, -, -, -, hother⟩ :=
    scan_exact (disk l) ⟨0, ["src"]⟩ l 1 (by decide +kernel) (by decide) (by decide)
  refine ⟨t, hscan, hother (disk l') l' (by decide +kernel) ?_, (hscripts _).mpr ?_⟩
  · exact .swap "b.ps1" "lib" (.file []) (.directory lib) .nil
  · refine ⟨["lib"], "A.PS1", rfl, ⟨⟨[], by decide⟩, by decide, by decide⟩, ?_⟩
    decide +kernel

/-- A directory that has a path just short enough is searched, and the one in it is not. -/
theorem not_scan_exact :
    ¬ ∀ (d : Disk) (root : Path) (l : Listing) (depth : Nat) (t : SourceTree),
      d.directory? root = .ok (some l) → l.IsNamed → l.IsDistinct →
      scan d root (some depth) = .ok (some t) →
      ∀ dirs name, l.Shows depth dirs name → ".ps1".toList <:+ Text.fold name →
        ¬ ".tests.ps1".toList <:+ Text.fold name → ⟨0, dirs ++ [name]⟩ ∈ t.scripts := by
  intro h
  let long : Text := List.replicate 252 's'
  let l : Listing := .file "a.ps1" [] (.directory "private" (.file "b.ps1" [] .nil) .nil)
  let d : Disk := ⟨.directory long l .nil, ⟨1, []⟩, [], [], fun _ => none⟩
  let root : Path := ⟨0, (List.replicate 15 [long, ".."]).flatten ++ [long]⟩
  have hdir : d.directory? root = .ok (some l) := by decide +kernel
  have hmem := h d root l 16 _ hdir (by decide) (by decide) (scan_eq hdir 16) ["private"] "b.ps1"
    ⟨⟨[], by decide⟩, by decide, by decide⟩ (by decide +kernel) (by decide +kernel)
  exact absurd (List.mem_filter.mp hmem).2 (by decide +kernel)

end SourceTree
end ScriptModule
