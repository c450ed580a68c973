/-
  ScriptModule/Proofs/Untouched.lean
  ==================================
  **A build that fails touches nothing.**  While a file is written, one new file stands
  beside the place that it is meant for.  Every step of writing keeps the disk as it was but
  for that file, whether the step ends well or not (`Extra`); removing the file gives the
  old disk back, and moving it changes the one place it is moved to.  So the disk behind a
  failed build is the disk before it, and a build that succeeds changes one file.
-/
import ScriptModule.Project

namespace ScriptModule

namespace Listing

/-! ### Entries set and erased -/

theorem set_eq_self {l : Listing} {n : Text} {x : Node} (h : l.find? n = some x) :
    l.set n x = l := by
  induction l with
  | nil => exact absurd h nofun
  | file m c r ih =>
    by_cases hm : m = n
    · obtain rfl : Node.file c = x := by simpa [find?, hm] using h
      simp [set, hm, cons]
    · rw [set, if_neg hm, ih (by simpa [find?, hm] using h)]
  | directory m d r _ ih =>
    by_cases hm : m = n
    · obtain rfl : Node.directory d = x := by simpa [find?, hm] using h
      simp [set, hm, cons]
    · rw [set, if_neg hm, ih (by simpa [find?, hm] using h)]

theorem set_cons (n : Text) (x y : Node) (r : Listing) : (cons n r x).set n y = cons n r y := by
  cases x <;> simp [cons, set]

@[simp] theorem set_set (l : Listing) (n : Text) (x y : Node) :
    (l.set n x).set n y = l.set n y := by
  induction l with
  | nil => exact set_cons n x y .nil
  | file m c r ih => by_cases h : m = n <;> simp [set, h, set_cons, ih]
  | directory m d r _ ih => by_cases h : m = n <;> simp [set, h, set_cons, ih]

theorem erase_set {l : Listing} {n : Text} (x : Node) (h : l.find? n = none) :
    (l.set n x).erase n = l := by
  induction l with
  | nil => cases x <;> simp [set, cons, erase]
  | file m c r ih =>
    have hm : m ≠ n := fun hm => by simp [find?, hm] at h
    simp [set, hm, erase, ih (by simpa [find?, hm] using h)]
  | directory m d r _ ih =>
    have hm : m ≠ n := fun hm => by simp [find?, hm] at h
    simp [set, hm, erase, ih (by simpa [find?, hm] using h)]

theorem subdirectory_set (l : Listing) (n : Text) (d : Listing) :
    (l.set n (.directory d)).subdirectory n = d := by
  simp [subdirectory]

/-! ### Directories at places -/

def IsDirectory (l : Listing) (place : List Text) : Prop :=
  ∃ d, l.node? place = some (.directory d)

theorem isDirectory_nil (l : Listing) : l.IsDirectory [] := ⟨l, rfl⟩

/-- A place in a directory leads through its first component. -/
theorem isDirectory_cons {l : Listing} {n : Text} {ns : List Text} :
    l.IsDirectory (n :: ns) ↔ ∃ d, l.find? n = some (.directory d) ∧ d.IsDirectory ns := by
  constructor
  · rintro ⟨e, he⟩
    rw [node?] at he
    split at he
    · exact ⟨_, ‹_›, e, he⟩
    · split at he <;> cases he
    · cases he
  · rintro ⟨d, hd, e, he⟩
    exact ⟨e, by rw [node?, hd]; exact he⟩

theorem IsDirectory.dropLast {l : Listing} {place : List Text} (h : l.IsDirectory place) :
    l.IsDirectory place.dropLast := by
  induction place generalizing l with
  | nil => exact h
  | cons n ns ih =>
    obtain ⟨d, hd, hns⟩ := isDirectory_cons.mp h
    cases ns with
    | nil => exact l.isDirectory_nil
    | cons m ns => exact isDirectory_cons.mpr ⟨d, hd, ih hns⟩

/-- Whether a file can be put at a place: its directory is there, and it is none itself. -/
structure Takes (l : Listing) (place : List Text) : Prop where
  inside : l.IsDirectory place.dropLast
  noDirectory : ¬ l.IsDirectory place

namespace Takes

theorem ne_nil {l : Listing} {place : List Text} (h : l.Takes place) : place ≠ [] :=
  fun hnil => h.noDirectory (hnil ▸ l.isDirectory_nil)

/-- Below a component that is not the last one stands a directory, and a change is made
    there. -/
theorem below {l : Listing} {n m : Text} {ns : List Text} (h : l.Takes (n :: m :: ns)) :
    ∃ d, l.find? n = some (.directory d) ∧ d.Takes (m :: ns) ∧
      ∀ x, l.put x (n :: m :: ns) = l.set n (.directory (d.put x (m :: ns))) := by
  obtain ⟨d, hd, hin⟩ := isDirectory_cons.mp h.inside
  refine ⟨d, hd, ⟨hin, fun hdir => h.noDirectory (isDirectory_cons.mpr ⟨d, hd, hdir⟩)⟩, ?_⟩
  intro x
  have hsub : l.subdirectory n = d := by simp [subdirectory, hd]
  rw [put, hsub]

end Takes

/-! ### A file put at a place -/

theorem find?_put_of_ne {n m : Text} (h : n ≠ m) (l : Listing) (x : Node) (ns : List Text) :
    (l.put x (n :: ns)).find? m = l.find? m := by
  cases ns with
  | nil => exact find?_set_of_ne h x l
  | cons m' ns => exact find?_set_of_ne h _ l

/-- Of two changes at one place the second remains. -/
theorem put_put (l : Listing) (x y : Node) (place : List Text) :
    (l.put x place).put y place = l.put y place := by
  fun_induction put l x place with
  | case1 => rfl
  | case2 l n => simp [put]
  | case3 l n m ns ih => rw [put, put, set_set, subdirectory_set, ih]

/-- A file where nothing was is removed without a trace. -/
theorem remove_put {l : Listing} {place : List Text} (x : Node) (h : l.Takes place)
    (hfree : l.node? place = none) : (l.put x place).remove place = l := by
  induction place generalizing l with
  | nil => exact absurd rfl h.ne_nil
  | cons n ns ih =>
    cases ns with
    | nil =>
      rw [put, remove]
      apply erase_set
      rcases hn : l.find? n with _ | y | d
      · rfl
      · simp [node?, hn] at hfree
      · simp [node?, hn] at hfree
    | cons m ns =>
      obtain ⟨d, hd, hin, hput⟩ := h.below
      rw [node?, hd] at hfree
      rw [hput, remove, find?_set_self]
      simp only [ih hin hfree, set_set]
      exact set_eq_self hd

/-- A new file at one place makes no file come, go or change at another. -/
theorem node?_put_file {l : Listing} {place q : List Text} (c b : Bytes) (h : l.Takes place)
    (hne : q ≠ place) :
    (l.put (.file c) place).node? q = some (.file b) ↔ l.node? q = some (.file b) := by
  induction place generalizing l q with
  | nil => exact absurd rfl h.ne_nil
  | cons n ns ih =>
    cases q with
    | nil => simp [node?]
    | cons m qs =>
      by_cases hmn : n = m
      · subst hmn
        cases ns with
        | nil =>
          have hqs : qs ≠ [] := fun hqs => hne (hqs ▸ rfl)
          rw [put, node?, find?_set_self, node?]
          rcases hn : l.find? n with _ | x | d
          · simp [hqs]
          · simp [hqs]
          · exact absurd (isDirectory_cons.mpr ⟨d, hn, isDirectory_nil d⟩) h.noDirectory
        | cons m ns =>
          obtain ⟨d, hd, hin, hput⟩ := h.below
          rw [hput, node?, find?_set_self, node?, hd]
          exact ih hin fun hqs => hne (hqs ▸ rfl)
      · rw [node?, find?_put_of_ne hmn, node?]

/-- A new file makes no directory come or go. -/
theorem isDirectory_put_file {l : Listing} {place q : List Text} (c : Bytes)
    (h : l.Takes place) : (l.put (.file c) place).IsDirectory q ↔ l.IsDirectory q := by
  induction place generalizing l q with
  | nil => exact absurd rfl h.ne_nil
  | cons n ns ih =>
    cases q with
    | nil => exact iff_of_true (isDirectory_nil _) (isDirectory_nil _)
    | cons m qs =>
      rw [isDirectory_cons, isDirectory_cons]
      by_cases hmn : n = m
      · subst hmn
        cases ns with
        | nil =>
          rw [put, find?_set_self]
          constructor
          · rintro ⟨d, hd, -⟩
            cases hd
          · rintro ⟨d, hd, -⟩
            exact absurd (isDirectory_cons.mpr ⟨d, hd, isDirectory_nil d⟩) h.noDirectory
        | cons m ns =>
          obtain ⟨d, hd, hin, hput⟩ := h.below
          rw [hput, find?_set_self, hd]
          simp [ih hin]
      · rw [find?_put_of_ne hmn]

theorem takes_put_file {l : Listing} {place q : List Text} (c : Bytes) (h : l.Takes place) :
    (l.put (.file c) place).Takes q ↔ l.Takes q := by
  constructor
  · intro hq
    exact ⟨(isDirectory_put_file c h).mp hq.inside, fun hdir =>
      hq.noDirectory ((isDirectory_put_file c h).mpr hdir)⟩
  · intro hq
    exact ⟨(isDirectory_put_file c h).mpr hq.inside, fun hdir =>
      hq.noDirectory ((isDirectory_put_file c h).mp hdir)⟩

/-- A new file that is moved leaves no trace where it was. -/
theorem move_put {l : Listing} {place : List Text} (c : Bytes) (target : List Text)
    (h : l.Takes place) (hfree : l.node? place = none) :
    (l.put (.file c) place).move place target = l.put (.file c) target := by
  rw [move, node?_put_self _ _ h.ne_nil]
  simp only [remove_put _ h hfree]

/-! ### Places that paths lead to -/

/-- A step to a component leads on from a directory only. -/
theorem locate_cons_eq_ok {l : Listing} {here place cs : List Text} {c : Text} :
    l.locate here (c :: cs) = .ok place ↔
      l.IsDirectory here ∧ Utf8.size c ≤ nameLimit ∧
        l.locate (Path.climb here c) cs = .ok place := by
  rw [locate]
  constructor
  · intro h
    split at h
    · split at h
      · cases h
      · exact ⟨⟨_, ‹_›⟩, Nat.not_lt.mp ‹_›, h⟩
    · cases h
    · cases h
  · rintro ⟨⟨e, he⟩, hsize, h⟩
    rw [he]
    simp only [if_neg (Nat.not_lt.mpr hsize), h]

theorem locate_eq {l : Listing} {here place cs : List Text}
    (h : l.locate here cs = .ok place) : place = cs.foldl Path.climb here := by
  induction cs generalizing here with
  | nil => cases h; rfl
  | cons c cs ih => exact ih (locate_cons_eq_ok.mp h).2.2

/-- A place that a path leads to lies in a directory. -/
theorem isDirectory_locate {l : Listing} {here place cs : List Text}
    (h : l.locate here cs = .ok place) (hhere : l.IsDirectory here.dropLast) :
    l.IsDirectory place.dropLast := by
  induction cs generalizing here with
  | nil => cases h; exact hhere
  | cons c cs ih =>
    obtain ⟨hdir, -, h⟩ := locate_cons_eq_ok.mp h
    apply ih h
    rw [Path.climb]
    split
    · exact hdir.dropLast.dropLast
    · rwa [List.dropLast_concat]

/-- A new file bars no path. -/
theorem locate_put_file {l : Listing} {place here q cs : List Text} (c : Bytes)
    (h : l.Takes place) :
    (l.put (.file c) place).locate here cs = .ok q ↔ l.locate here cs = .ok q := by
  induction cs generalizing here with
  | nil => rfl
  | cons n ns ih => rw [locate_cons_eq_ok, locate_cons_eq_ok, isDirectory_put_file c h, ih]

end Listing

namespace Disk

theorem locate_eq_ok {d : Disk} {p : Path} {place : List Text} :
    d.locate p = .ok place ↔ p.hasNull = false ∧ p.isTooLong = false ∧
      d.root.locate [] (d.cwd.append p).parts = .ok place := by
  unfold locate
  cases p.hasNull <;> cases p.isTooLong <;> simp

theorem place_eq {d : Disk} {p : Path} {place : List Text} (h : d.locate p = .ok place) :
    place = (d.resolve p).parts :=
  Listing.locate_eq (locate_eq_ok.mp h).2.2

theorem isDirectory_place {d : Disk} {p : Path} {place : List Text}
    (h : d.locate p = .ok place) : d.root.IsDirectory place.dropLast :=
  Listing.isDirectory_locate (locate_eq_ok.mp h).2.2 d.root.isDirectory_nil

theorem locate_withFile {d : Disk} {place q : List Text} (c : Bytes) (p : Path)
    (h : d.root.Takes place) : (d.withFile c place).locate p = .ok q ↔ d.locate p = .ok q := by
  rw [locate_eq_ok, locate_eq_ok]
  simp only [withFile, Listing.locate_put_file c h]

end Disk

/-! ### How deeds end -/

namespace Deed

variable {α β : Type}

/-- A deed on the disk `d` ends well, with a value and a disk as `well` says, or it ends in
    an error and leaves a disk as `badly` says. -/
def Ends (x : Deed α) (d : Disk) (well : α → Disk → Prop) (badly : Disk → Prop) : Prop :=
  match x d with
  | .ok a d' => well a d'
  | .error _ d' => badly d'

variable {x : Deed α} {d : Disk} {well : α → Disk → Prop} {badly : Disk → Prop}

theorem ends_get {f : Disk → Deed α} :
    (get >>= f).Ends d well badly ↔ (f d).Ends d well badly :=
  Iff.rfl

theorem Ends.bind {f : α → Deed β} {well' : β → Disk → Prop} (hx : x.Ends d well badly)
    (hf : ∀ a d', well a d' → (f a).Ends d' well' badly) : (x >>= f).Ends d well' badly := by
  have hdef : x >>= f = EStateM.bind x f := rfl
  unfold Ends at hx ⊢
  rw [hdef, EStateM.bind]
  rcases h : x d with ⟨a, d'⟩ | ⟨e, d'⟩
  · rw [h] at hx
    exact hf a d' hx
  · rw [h] at hx
    exact hx

theorem Ends.mono {well' : α → Disk → Prop} {badly' : Disk → Prop} (hx : x.Ends d well badly)
    (hwell : ∀ a d', well a d' → well' a d') (hbadly : ∀ d', badly d' → badly' d') :
    x.Ends d well' badly' := by
  unfold Ends at hx ⊢
  rcases h : x d with ⟨a, d'⟩ | ⟨e, d'⟩
  · rw [h] at hx
    exact hwell a d' hx
  · rw [h] at hx
    exact hbadly d' hx

/-- What is done after an error starts from the disk that the error left. -/
theorem Ends.rescue {f : FileError → Deed α} {badly' : Disk → Prop}
    (hx : x.Ends d well badly) (hf : ∀ e d', badly d' → (f e).Ends d' well badly') :
    (tryCatch x f).Ends d well badly' := by
  have hdef : (tryCatch x f : Deed α) = EStateM.tryCatch x f := rfl
  unfold Ends at hx ⊢
  rw [hdef]
  delta EStateM.tryCatch
  rcases h : x d with ⟨a, d'⟩ | ⟨e, d'⟩
  · rw [h] at hx
    exact hx
  · rw [h] at hx
    exact hf e d' hx

end Deed

namespace Disk

open Deed

/-! ### Steps of writing -/

/-- The disk `d'` is `d` with one more file, at a place where nothing was. -/
structure Extra (d : Disk) (place : List Text) (c : Bytes) (d' : Disk) : Prop where
  takes : d.root.Takes place
  free : d.root.node? place = none
  eq : d' = d.withFile c place

/-- A step that the system may fail in changes nothing itself. -/
theorem attempt_ends (s : WriteStep) (e : Refusal → FileError) (d : Disk) :
    (attempt s e).Ends d (fun _ d' => d' = d) (· = d) := by
  unfold attempt
  rw [ends_get]
  split
  · exact rfl
  · exact rfl

/-- The file that is made first is the only change. -/
theorem create_ends (p : Path) (names : List Text) (d : Disk) :
    (create p names).Ends d (fun spare d' => Extra d spare.2 [] d') (· = d) := by
  induction names with
  | nil => exact rfl
  | cons name names ih =>
    unfold create
    rw [ends_get]
    simp only
    split
    · exact rfl
    · next place hloc =>
      split
      · exact ih
      · next hfree =>
        have hnone : d.root.node? place = none := by simpa using hfree
        apply (attempt_ends ..).bind
        rintro - d' rfl
        refine show Extra d' place [] _ from ⟨⟨isDirectory_place hloc, ?_⟩, hnone, rfl⟩
        rintro ⟨e, he⟩
        rw [hnone] at he
        cases he

/-- While it is filled the file may be left with other bytes. -/
theorem fill_ends {d d₁ : Disk} {place : List Text} {b : Bytes} (c : Bytes)
    (h : Extra d place b d₁) :
    (fill place c).Ends d₁ (fun _ d' => Extra d place c d') (∃ b, Extra d place b ·) := by
  apply ((attempt_ends ..).mono (fun _ _ => id) ?_).bind
  · rintro - d' rfl
    refine show Extra d place c _ from ⟨h.takes, h.free, ?_⟩
    rw [h.eq]
    simp only [withFile, Listing.put_put]
  · rintro d' rfl
    exact ⟨b, h⟩

theorem keepMode_ends (spare p : Path) (d : Disk) :
    (keepMode spare p).Ends d (fun _ d' => d' = d) (· = d) := by
  unfold keepMode
  rw [ends_get]
  split
  · exact attempt_ends ..
  · exact attempt_ends ..
  · exact rfl

/-- The file is moved in one step, to a place that can take it. -/
theorem replace_ends (spare : Path) (place : List Text) (p : Path) (d : Disk) :
    (replace spare place p).Ends d
      (fun _ d' => ∃ target, d.locate p = .ok target ∧ d.root.Takes target ∧
        d' = { d with root := d.root.move place target }) (· = d) := by
  apply (attempt_ends ..).bind
  rintro - d rfl
  rw [ends_get]
  split
  · exact rfl
  · next target hloc =>
    split
    · exact rfl
    · split
      · exact rfl
      · next hnot =>
        exact ⟨target, hloc, ⟨isDirectory_place hloc, fun ⟨e, he⟩ => hnot e he⟩, rfl⟩

/-! ### The whole -/

/-- Writing puts one file where its path leads, or leaves the disk as it was. -/
theorem write_ends (p : Path) (content : Bytes) (d : Disk) :
    (write p content).Ends d
      (fun _ d' => ∃ target, d.locate p = .ok target ∧ d.root.Takes target ∧
        d' = d.withFile content target) (· = d) := by
  refine (create_ends p (d.spare :: d.laterSpares) d).bind ?_
  rintro ⟨spare, place⟩ d₁ hnew
  -- up to the last step the disk has one more file, and that step moves it
  have hsteps : Ends (do fill place content; keepMode spare p; replace spare place p) d₁
      (fun _ d' => ∃ target, d.locate p = .ok target ∧ d.root.Takes target ∧
        d' = d.withFile content target)
      (fun d' => ∃ b, Extra d place b d') := by
    apply (fill_ends content hnew).bind
    intro _ d₂ hfull
    have hleft : ∀ d', d' = d₂ → ∃ b, Extra d place b d' := by
      rintro d' rfl
      exact ⟨content, hfull⟩
    apply ((keepMode_ends spare p d₂).mono (fun _ _ => id) hleft).bind
    rintro - d₂ rfl
    refine (replace_ends spare place p d₂).mono ?_ hleft
    rintro - d₃ ⟨target, hloc, htakes, rfl⟩
    rw [hfull.eq] at hloc htakes ⊢
    refine ⟨target, (locate_withFile content p hfull.takes).mp hloc,
      (Listing.takes_put_file content hfull.takes).mp htakes, ?_⟩
    simp only [withFile, Listing.move_put _ _ hfull.takes hfull.free]
  apply hsteps.rescue
  rintro e d₂ ⟨b, hleft⟩
  show ({ d₂ with root := d₂.root.remove place } : Disk) = d
  rw [hleft.eq]
  simp only [withFile, Listing.remove_put _ hleft.takes hleft.free]

end Disk

/-! ### Builds -/

/-- Two root directories hold the same files, but for one place, and the same directories. -/
structure Listing.SameBut (place : List Text) (l l' : Listing) : Prop where
  files : ∀ q ≠ place, ∀ b, l'.node? q = some (.file b) ↔ l.node? q = some (.file b)
  directories : ∀ q, l'.IsDirectory q ↔ l.IsDirectory q

/-- How a build leaves the disk: as it was if the build fails; with the bytes of the
    module's text where the destination leads, and else as it was, if it succeeds. -/
def Project.Result.Keeps (r : Project.Result) (d : Disk) (destination : Path) : Prop :=
  match r.text with
  | .error _ => r.disk = d
  | .ok text =>
    r.disk.node destination = .ok (.file (Utf8.encode text)) ∧
      Listing.SameBut (d.resolve destination).parts d.root r.disk.root

theorem Project.save_keeps (d : Disk) (draft : Draft) (destination : Path) :
    (save d draft destination).Keeps d destination := by
  have hwrite := Disk.write_ends destination (Utf8.encode draft.render) d
  rw [Deed.Ends] at hwrite
  rcases h : Disk.write destination (Utf8.encode draft.render) d with ⟨u, d'⟩ | ⟨e, d'⟩
  · simp only [h] at hwrite
    simp only [save, h, Result.Keeps]
    obtain ⟨target, hloc, htakes, rfl⟩ := hwrite
    obtain rfl := Disk.place_eq hloc
    constructor
    · simp only [Disk.node, (Disk.locate_withFile _ destination htakes).mpr hloc]
      simp only [Disk.withFile, Listing.node?_put_self _ _ htakes.ne_nil]
    · exact ⟨fun q hq b => Listing.node?_put_file _ b htakes hq,
        fun q => Listing.isDirectory_put_file _ htakes⟩
  · simp only [h] at hwrite
    simpa only [save, h, Result.Keeps] using hwrite

/-- Whatever ends a build, in the search, in a file that is taken in or in a step of
    writing, it leaves the disk as it was; a build that succeeds changes one file. -/
theorem Project.build_keeps (p : Project) (d : Disk) (destination : Path) :
    (p.build d destination).Keeps d destination := by
  simp only [build]
  split
  · exact rfl
  · split
    · exact rfl
    · exact rfl
    · split
      · exact rfl
      · exact save_keeps d _ destination

/-- A disk with an empty source root and an earlier module. -/
def Disk.sample (faults : WriteStep → Option Refusal) : Disk where
  root := .directory "src".toList .nil (.file "m.psm1".toList (Utf8.encode "old") .nil)
  cwd := ⟨1, []⟩
  spare := ".spare".toList
  faults := faults

/-- The module is replaced; but if the last step fails, behind a file that was made and
    filled, the earlier module stays and nothing else does. -/
theorem Project.build_keeps_sample :
    let p : Project := { root := Path.ofText "src" }
    let destination := Path.ofText "m.psm1"
    let written := p.build (Disk.sample fun _ => none) destination
    let full := Disk.sample fun s => if s = .replace then some .noSpace else none
    (∃ text, written.text = .ok text ∧
      written.disk.node destination = .ok (.file (Utf8.encode text))) ∧
      (p.build full destination).text.toOption = none ∧ (p.build full destination).disk = full := by
  intro p destination written full
  constructor
  · have hsucceeds : written.text.toOption.isSome = true := by decide +kernel
    have hkeeps : written.Keeps (Disk.sample fun _ => none) destination := build_keeps _ _ _
    unfold Result.Keeps at hkeeps
    rcases htext : written.text with f | text
    · rw [htext] at hsucceeds
      cases hsucceeds
    · rw [htext] at hkeeps
      exact ⟨text, rfl, hkeeps.1⟩
  · have hfails : (p.build full destination).text.toOption = none := by decide +kernel
    have hkeeps : (p.build full destination).Keeps full destination := build_keeps _ _ _
    refine ⟨hfails, ?_⟩
    unfold Result.Keeps at hkeeps
    rcases htext : (p.build full destination).text with f | text
    · rw [htext] at hkeeps
      exact hkeeps
    · rw [htext] at hfails
      cases hfails

end ScriptModule
