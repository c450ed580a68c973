/-
  ScriptModule/Proofs/BasesFirst.lean
  ===================================
  **Bases before subclasses.**  What is counted for the classes that wait says which of
  them may follow (`Placing`), so the least of these is placed each time (`Greedy`).  A row
  made in this way is the least of all that put bases first, and holds exactly the classes
  from which no cycle is reached: a class that is left has a base that is left, and in a
  finite module such a chain of bases closes.
-/
import Mathlib.Data.Fintype.Card
import Mathlib.Data.Finite.Prod
import Mathlib.Logic.Relation
import ScriptModule.Merge.ClassOrder

namespace ScriptModule.ClassDef

variable {classes : List ClassDef} {placed ready l : List Nat} {i j k : Nat}

/-! ### Local bases -/

/-- Whether the class at `i` is based on the one at `j`: the first that a base type names. -/
def IsBase (classes : List ClassDef) (i j : Nat) : Prop :=
  ∃ c b base, classes[i]? = some c ∧ base ∈ c.baseTypes ∧ classes[j]? = some b ∧
    Text.fold b.name = baseKey base ∧
    ∀ k < j, ∀ a, classes[k]? = some a → Text.fold a.name ≠ baseKey base

/-- Whether the bases of a class, and the bases of these, lead into a cycle. -/
def ReachesCycle (classes : List ClassDef) (i : Nat) : Prop :=
  ∃ j, Relation.ReflTransGen (IsBase classes) i j ∧ Relation.TransGen (IsBase classes) j j

/-- Whether in a row of classes each one stands behind all that it is based on. -/
def BasesFirst (classes : List ClassDef) (l : List Nat) : Prop :=
  ∀ front i back, l = front ++ i :: back → ∀ j, IsBase classes i j → j ∈ front

theorem indexOf?_eq_some {key : Text} : indexOf? classes key = some j ↔
    ∃ b, classes[j]? = some b ∧ Text.fold b.name = key ∧
      ∀ k < j, ∀ a, classes[k]? = some a → Text.fold a.name ≠ key := by
  rw [indexOf?, List.findIdx?_eq_some_iff_getElem]
  constructor
  · rintro ⟨hj, hname, hbefore⟩
    refine ⟨classes[j], List.getElem?_eq_getElem hj, by simpa using hname, ?_⟩
    intro k hk a ha
    obtain ⟨hlen, rfl⟩ := List.getElem?_eq_some_iff.mp ha
    simpa using hbefore k hk
  · rintro ⟨b, hb, hname, hbefore⟩
    obtain ⟨hj, rfl⟩ := List.getElem?_eq_some_iff.mp hb
    refine ⟨hj, by simpa using hname, ?_⟩
    intro k hk
    simpa using hbefore k hk _ (List.getElem?_eq_getElem (Nat.lt_trans hk hj))

theorem mem_basesAt : j ∈ basesAt classes i ↔ IsBase classes i j := by
  unfold basesAt IsBase
  constructor
  · intro h
    rcases hc : classes[i]? with _ | c
    · rw [hc] at h
      exact absurd h List.not_mem_nil
    · rw [hc] at h
      obtain ⟨base, hbase, hindex⟩ := List.mem_filterMap.mp h
      obtain ⟨b, hb, hname, hbefore⟩ := indexOf?_eq_some.mp hindex
      exact ⟨c, b, base, rfl, hbase, hb, hname, hbefore⟩
  · rintro ⟨c, b, base, hc, hbase, hb, hname, hbefore⟩
    rw [hc]
    exact List.mem_filterMap.mpr ⟨base, hbase, indexOf?_eq_some.mpr ⟨b, hb, hname, hbefore⟩⟩

theorem IsBase.lt (h : IsBase classes i j) : i < classes.length ∧ j < classes.length := by
  obtain ⟨c, b, -, hc, -, hb, -⟩ := h
  exact ⟨(List.getElem?_eq_some_iff.mp hc).1, (List.getElem?_eq_some_iff.mp hb).1⟩

theorem ReachesCycle.of_isBase (h : IsBase classes i j) (hj : ReachesCycle classes j) :
    ReachesCycle classes i := by
  obtain ⟨k, hreach, hcycle⟩ := hj
  exact ⟨k, hreach.head h, hcycle⟩

/-- The classes from which no cycle is reached. -/
abbrev Acyclic (classes : List ClassDef) : Type :=
  { i : Fin classes.length // ¬ ReachesCycle classes i }

/-- Whether a chain of bases leads from the second class down to the first. -/
def Acyclic.Below (b a : Acyclic classes) : Prop :=
  Relation.TransGen (IsBase classes) a.1 b.1

theorem Acyclic.wellFounded_below : WellFounded (@Below classes) := by
  have hirrefl : Std.Irrefl (@Below classes) :=
    ⟨fun a hcycle => a.2 ⟨a.1, .refl, hcycle⟩⟩
  have htrans : IsTrans (Acyclic classes) Below := ⟨fun a b c hab hbc => hbc.trans hab⟩
  exact Finite.wellFounded_of_trans_of_irrefl Below

/-- What holds of a class when it holds of its bases holds of all that reach no cycle. -/
theorem forall_of_not_reachesCycle {P : Nat → Prop}
    (h : ∀ i < classes.length, (∀ j, IsBase classes i j → P j) → P i) :
    ∀ i < classes.length, ¬ ReachesCycle classes i → P i := by
  intro i hi hacyclic
  refine Acyclic.wellFounded_below.induction (C := fun a => P a.1) ⟨⟨i, hi⟩, hacyclic⟩ ?_
  intro a ih
  apply h a.1 a.1.isLt
  intro j hj
  have hjacyclic : ¬ ReachesCycle classes j := fun hreach => a.2 (hreach.of_isBase hj)
  exact ih ⟨⟨j, hj.lt.2⟩, hjacyclic⟩ (.single hj)

/-! ### What may follow -/

/-- Whether a class that is not placed may be placed next: all its bases are. -/
structure MayFollow (classes : List ClassDef) (placed : List Nat) (i : Nat) : Prop where
  lt : i < classes.length
  left : i ∉ placed
  bases : ∀ j, IsBase classes i j → j ∈ placed

/-- Rows in which each class is the least that may follow those in front of it, up to where
    none may follow.  What is placed already is given from the last to the first. -/
inductive Greedy (classes : List ClassDef) : List Nat → List Nat → Prop where
  | stop {placed : List Nat} (h : ∀ i, ¬ MayFollow classes placed i) : Greedy classes placed []
  | next {placed : List Nat} {i : Nat} {l : List Nat} (h : MayFollow classes placed i)
      (least : ∀ j, MayFollow classes placed j → i ≤ j) (rest : Greedy classes (i :: placed) l) :
      Greedy classes placed (i :: l)

/-- The bases of a class that are not placed. -/
def missingBases (classes : List ClassDef) (placed : List Nat) (k : Nat) : List Nat :=
  (List.range classes.length).filter fun j => (basesAt classes k).contains j && !placed.contains j

theorem mem_missingBases : j ∈ missingBases classes placed k ↔ IsBase classes k j ∧ j ∉ placed := by
  simp only [missingBases, List.mem_filter, List.mem_range, Bool.and_eq_true,
    List.contains_iff_mem, mem_basesAt, Bool.not_eq_true', ← Bool.not_eq_true]
  constructor
  · exact fun h => h.2
  · exact fun h => ⟨h.1.lt.2, h⟩

theorem missingBases_eq_nil :
    missingBases classes placed k = [] ↔ ∀ j, IsBase classes k j → j ∈ placed := by
  rw [List.eq_nil_iff_forall_not_mem]
  simp only [mem_missingBases, not_and, not_not]

theorem missingBases_cons :
    missingBases classes (i :: placed) k = (missingBases classes placed k).erase i := by
  have hnodup : (missingBases classes placed k).Nodup := List.nodup_range.filter _
  rw [hnodup.erase_eq_filter, missingBases, missingBases, List.filter_filter]
  apply List.filter_congr
  intro j _
  by_cases hji : j = i <;> simp [hji]

/-! ### Counting down -/

/-- Classes with the numbers of their missing bases. -/
def counted (classes : List ClassDef) (placed ks : List Nat) : List Waiting :=
  ks.map fun k => ⟨k, (missingBases classes placed k).length⟩

theorem isReady_counted (k : Nat) : (⟨k, (missingBases classes placed k).length⟩ : Waiting).isReady =
    decide (missingBases classes placed k = []) := by
  cases missingBases classes placed k <;> simp [Waiting.isReady]

theorem released_counted (ks : List Nat) : released (counted classes placed ks) =
    ks.filter fun k => missingBases classes placed k = [] := by
  simp only [released, counted, List.filter_map, List.map_map]
  rw [show (Waiting.index ∘ fun k => (⟨k, (missingBases classes placed k).length⟩ : Waiting)) = id
    from rfl, List.map_id]
  apply List.filter_congr
  intro k _
  exact isReady_counted k

theorem held_counted (ks : List Nat) : held (counted classes placed ks) =
    counted classes placed (ks.filter fun k => missingBases classes placed k ≠ []) := by
  simp only [held, counted, List.filter_map]
  congr 1
  apply List.filter_congr
  intro k _
  simp [isReady_counted]

theorem counted_first : (List.range classes.length).map
    (Waiting.first (basesAt classes) classes.length) =
      counted classes [] (List.range classes.length) := by
  apply List.map_congr_left
  intro k _
  rw [Waiting.first, missingBases, List.countP_eq_length_filter]
  simp only [List.contains_nil, Bool.not_false, Bool.and_true]

/-- When a class is placed, one less is counted exactly for what is based on it. -/
theorem countDown_counted (hleft : i ∉ placed) (ks : List Nat) :
    countDown (basesAt classes) i (counted classes placed ks) =
      counted classes (i :: placed) ks := by
  simp only [countDown, counted, List.map_map]
  apply List.map_congr_left
  intro k _
  have hmissing : i ∈ missingBases classes placed k ↔ (basesAt classes k).contains i = true := by
    rw [mem_missingBases, List.contains_iff_mem, mem_basesAt]
    exact and_iff_left hleft
  rw [missingBases_cons, List.length_erase]
  simp only [Function.comp_apply, ← hmissing]
  split <;> rfl

/-! ### Placing -/

/-- What is ready and what waits while classes are placed: those that may follow, and those
    with a base that is not placed, with the number of such bases. -/
structure Placing (classes : List ClassDef) (placed ready : List Nat) (waiting : List Waiting) :
    Prop where
  closed : ∀ i ∈ placed, ∀ j, IsBase classes i j → j ∈ placed
  mayFollow : ∀ i, i ∈ ready ↔ MayFollow classes placed i
  nodup : ready.Nodup
  waits : waiting = counted classes placed
    ((List.range classes.length).filter fun k => missingBases classes placed k ≠ [])

theorem placing_start (classes : List ClassDef) :
    let waiting := (List.range classes.length).map
      (Waiting.first (basesAt classes) classes.length)
    Placing classes [] (released waiting) (held waiting) := by
  intro waiting
  have hwaiting : waiting = counted classes [] (List.range classes.length) := counted_first
  refine ⟨?_, ?_, ?_, ?_⟩
  · intro i hi
    exact absurd hi List.not_mem_nil
  · intro i
    rw [hwaiting, released_counted, List.mem_filter, List.mem_range, decide_eq_true_eq,
      missingBases_eq_nil]
    constructor
    · intro h
      exact ⟨h.1, List.not_mem_nil, h.2⟩
    · intro h
      exact ⟨h.lt, h.bases⟩
  · rw [hwaiting, released_counted]
    exact List.nodup_range.filter _
  · rw [hwaiting, held_counted]

/-- One step: a class that was ready is placed, and what has waited for it alone is ready. -/
theorem Placing.step {waiting : List Waiting} (h : Placing classes placed ready waiting)
    (hi : i ∈ ready) :
    Placing classes (i :: placed)
      (ready.erase i ++ released (countDown (basesAt classes) i waiting))
      (held (countDown (basesAt classes) i waiting)) := by
  have hfollow := (h.mayFollow i).mp hi
  have hcounted : countDown (basesAt classes) i waiting = counted classes (i :: placed)
      ((List.range classes.length).filter fun k => missingBases classes placed k ≠ []) := by
    rw [h.waits]
    exact countDown_counted hfollow.left _
  have hfewer : ∀ k, missingBases classes placed k = [] →
      missingBases classes (i :: placed) k = [] := by
    intro k hk
    rw [missingBases_cons, hk, List.erase_nil]
  refine ⟨?_, ?_, ?_, ?_⟩
  · intro k hk j hj
    rcases List.mem_cons.mp hk with rfl | hk
    · exact List.mem_cons_of_mem _ (hfollow.bases j hj)
    · exact List.mem_cons_of_mem _ (h.closed k hk j hj)
  · intro k
    rw [hcounted, released_counted, List.mem_append, h.nodup.mem_erase_iff, h.mayFollow,
      List.mem_filter, List.mem_filter, List.mem_range, decide_eq_true_eq, decide_eq_true_eq]
    constructor
    · rintro (⟨hne, hk⟩ | ⟨⟨hk, hwaits⟩, hfree⟩)
      · refine ⟨hk.lt, List.not_mem_cons_of_ne_of_not_mem hne hk.left, ?_⟩
        intro j hj
        exact List.mem_cons_of_mem _ (hk.bases j hj)
      · refine ⟨hk, ?_, missingBases_eq_nil.mp hfree⟩
        intro hplaced
        apply hwaits
        rw [missingBases_eq_nil]
        rcases List.mem_cons.mp hplaced with rfl | hplaced
        · exact hfollow.bases
        · exact h.closed k hplaced
    · intro hk
      obtain ⟨hne, hleft⟩ := not_or.mp (mt List.mem_cons.mpr hk.left)
      by_cases hwaits : missingBases classes placed k = []
      · exact .inl ⟨hne, hk.lt, hleft, missingBases_eq_nil.mp hwaits⟩
      · exact .inr ⟨⟨hk.lt, hwaits⟩, missingBases_eq_nil.mpr hk.bases⟩
  · rw [hcounted, released_counted]
    apply List.Nodup.append (h.nodup.erase i)
    · exact (List.nodup_range.filter _).filter _
    · intro k hk hk'
      obtain ⟨hkwaits, -⟩ := List.mem_filter.mp hk'
      obtain ⟨-, hwaits⟩ := List.mem_filter.mp hkwaits
      have hready := (h.mayFollow k).mp (List.mem_of_mem_erase hk)
      exact of_decide_eq_true hwaits (missingBases_eq_nil.mpr hready.bases)
  · rw [hcounted, held_counted, List.filter_filter]
    congr 1
    apply List.filter_congr
    intro k _
    by_cases hk : missingBases classes placed k = []
    · simp [hk, hfewer k hk]
    · simp [hk]

/-- The whole run: each time the least class that may follow is placed. -/
theorem Placing.greedy {waiting : List Waiting} (h : Placing classes placed ready waiting) :
    Greedy classes placed (place (basesAt classes) ready waiting) := by
  fun_induction place (basesAt classes) ready waiting generalizing placed with
  | case1 ready waiting hmin =>
    apply Greedy.stop
    intro i hi
    rw [List.min?_eq_none_iff.mp hmin] at h
    exact absurd ((h.mayFollow i).mpr hi) List.not_mem_nil
  | case2 ready waiting i hmin counted =>
    rename_i ih
    obtain ⟨hmem, hleast⟩ := List.min?_eq_some_iff.mp hmin
    apply Greedy.next ((h.mayFollow i).mp hmem)
    · intro j hj
      exact hleast j ((h.mayFollow j).mpr hj)
    · exact ih (h.step hmem)

/-! ### Greedy rows -/

theorem Greedy.mem (h : Greedy classes placed l) : ∀ i ∈ l, i < classes.length ∧ i ∉ placed := by
  induction h with
  | stop => exact fun i hi => absurd hi List.not_mem_nil
  | next hi _ _ ih =>
    intro k hk
    rcases List.mem_cons.mp hk with rfl | hk
    · exact ⟨hi.lt, hi.left⟩
    · exact ⟨(ih k hk).1, fun hplaced => (ih k hk).2 (List.mem_cons_of_mem _ hplaced)⟩

theorem Greedy.nodup (h : Greedy classes placed l) : l.Nodup := by
  induction h with
  | stop => exact List.nodup_nil
  | next _ _ hrest ih =>
    rw [List.nodup_cons]
    exact ⟨fun hmem => (hrest.mem _ hmem).2 List.mem_cons_self, ih⟩

/-- Whether in a row behind what is placed each class stands behind its bases. -/
def BasesFirstBehind (classes : List ClassDef) (placed l : List Nat) : Prop :=
  ∀ front i back, l = front ++ i :: back → ∀ j, IsBase classes i j → j ∈ placed ∨ j ∈ front

theorem basesFirstBehind_nil : BasesFirstBehind classes [] l ↔ BasesFirst classes l := by
  simp [BasesFirstBehind, BasesFirst]

theorem basesFirstBehind_cons : BasesFirstBehind classes placed (i :: l) ↔
    (∀ j, IsBase classes i j → j ∈ placed) ∧ BasesFirstBehind classes (i :: placed) l := by
  constructor
  · intro h
    constructor
    · intro j hj
      simpa using h [] i l rfl j hj
    · intro front k back hl j hj
      have hmem := h (i :: front) k back (by rw [hl]; rfl) j hj
      simpa [or_assoc, or_left_comm] using hmem
  · rintro ⟨hhead, htail⟩ front k back hl j hj
    cases front with
    | nil =>
      obtain ⟨rfl, rfl⟩ := List.cons.inj hl
      exact .inl (hhead j hj)
    | cons a front =>
      obtain ⟨rfl, htl⟩ := List.cons.inj hl
      have hmem := htail front k back htl j hj
      simpa [or_assoc, or_left_comm] using hmem

theorem Greedy.basesFirstBehind (h : Greedy classes placed l) :
    BasesFirstBehind classes placed l := by
  induction h with
  | stop =>
    intro front i back hl
    exact absurd hl.symm (List.append_ne_nil_of_right_ne_nil _ (List.cons_ne_nil _ _))
  | next hi _ _ ih => exact basesFirstBehind_cons.mpr ⟨hi.bases, ih⟩

/-- Of the rows of the same classes that put bases first, a greedy row is the least. -/
theorem Greedy.least (h : Greedy classes placed l) {other : List Nat} (hperm : other.Perm l)
    (hother : BasesFirstBehind classes placed other) :
    other = l ∨ List.Lex (· < ·) l other := by
  induction h generalizing other with
  | stop => exact .inl hperm.eq_nil
  | @next placed i l hi least hrest ih =>
    cases other with
    | nil => exact absurd hperm.symm.eq_nil (List.cons_ne_nil _ _)
    | cons a other =>
      obtain ⟨hbases, hbehind⟩ := basesFirstBehind_cons.mp hother
      have hmem := (Greedy.next hi least hrest).mem a (hperm.mem_iff.mp List.mem_cons_self)
      have hle : i ≤ a := least a ⟨hmem.1, hmem.2, hbases⟩
      rcases Nat.lt_or_eq_of_le hle with hlt | rfl
      · exact .inr (.rel hlt)
      · rcases ih hperm.cons_inv hbehind with rfl | hlex
        · exact .inl rfl
        · exact .inr (.cons hlex)

theorem not_reachesCycle_of_bases (h : ∀ j, IsBase classes i j → ¬ ReachesCycle classes j) :
    ¬ ReachesCycle classes i := by
  rintro ⟨j, hreach, hcycle⟩
  rcases hreach.cases_head with rfl | ⟨k, hk, hrest⟩
  · obtain ⟨k, hk, hback⟩ := Relation.TransGen.head'_iff.mp hcycle
    exact h k hk ⟨i, hback, hcycle⟩
  · exact h k hk ⟨j, hrest, hcycle⟩

/-- A greedy row holds the classes that reach no cycle: no other one is placed, and at its
    end every one that is left has a base that is left. -/
theorem Greedy.mem_iff (h : Greedy classes [] l) :
    i ∈ l ↔ i < classes.length ∧ ¬ ReachesCycle classes i := by
  have hacyclic : ∀ {placed l}, Greedy classes placed l →
      (∀ i ∈ placed, ¬ ReachesCycle classes i) → ∀ i ∈ l, ¬ ReachesCycle classes i := by
    intro placed l h
    induction h with
    | stop => exact fun _ i hi => absurd hi List.not_mem_nil
    | next hi _ _ ih =>
      intro hplaced
      have hhead := not_reachesCycle_of_bases fun j hj => hplaced j (hi.bases j hj)
      exact List.forall_mem_cons.mpr ⟨hhead, ih (List.forall_mem_cons.mpr ⟨hhead, hplaced⟩)⟩
  have hall : ∀ {placed l}, Greedy classes placed l →
      ∀ i < classes.length, ¬ ReachesCycle classes i → i ∈ placed ∨ i ∈ l := by
    intro placed l h
    induction h with
    | stop hstop =>
      apply forall_of_not_reachesCycle
      intro i hi hbases
      by_contra hleft
      rw [not_or] at hleft
      refine hstop i ⟨hi, hleft.1, ?_⟩
      intro j hj
      exact (hbases j hj).resolve_right List.not_mem_nil
    | next _ _ _ ih =>
      intro i hi hi'
      simpa [or_assoc, or_left_comm] using ih i hi hi'
  constructor
  · intro hi
    exact ⟨(h.mem i hi).1, hacyclic h (fun j hj => absurd hj List.not_mem_nil) i hi⟩
  · rintro ⟨hi, hreach⟩
    exact (hall h i hi hreach).resolve_left List.not_mem_nil

/-! ### The order -/

theorem exists_order (classes : List ClassDef) : ∃ placed, Greedy classes [] placed ∧
    order classes = placed ++ (List.range classes.length).filter fun i => !placed.contains i :=
  ⟨_, (placing_start classes).greedy, rfl⟩

theorem order_perm (classes : List ClassDef) : (order classes).Perm (List.range classes.length) := by
  obtain ⟨placed, hgreedy, horder⟩ := exists_order classes
  have hnodup : (order classes).Nodup := by
    rw [horder]
    apply List.Nodup.append hgreedy.nodup (List.nodup_range.filter _)
    intro i hi hleft
    simpa [hi] using (List.mem_filter.mp hleft).2
  rw [List.perm_ext_iff_of_nodup hnodup List.nodup_range]
  intro i
  rw [horder, List.mem_append, List.mem_filter, List.mem_range]
  by_cases hi : i ∈ placed
  · simp [hi, (hgreedy.mem i hi).1]
  · simp [hi]

theorem filterMap_range {α : Type} (xs : List α) :
    (List.range xs.length).filterMap (fun i => xs[i]?) = xs := by
  induction xs with
  | nil => rfl
  | cons x xs ih =>
    have hfirst : (x :: xs)[0]? = some x := rfl
    rw [List.length_cons, List.range_succ_eq_map, List.filterMap_cons, hfirst,
      List.filterMap_map]
    exact congrArg (x :: ·) ih

theorem ordered_perm (classes : List DeclaredClass) : (ordered classes).Perm classes := by
  have hperm := (order_perm (classes.map DeclaredClass.toClassDef)).filterMap (classes[·]?)
  rw [List.length_map, filterMap_range] at hperm
  exact hperm

/-- A class that reaches no cycle stands behind each of its bases. -/
theorem sublist_ordered {classes : List DeclaredClass} {b c : DeclaredClass}
    (hb : classes[j]? = some b) (hc : classes[i]? = some c)
    (hbase : IsBase (classes.map DeclaredClass.toClassDef) i j)
    (hacyclic : ¬ ReachesCycle (classes.map DeclaredClass.toClassDef) i) :
    [b, c].Sublist (ordered classes) := by
  obtain ⟨placed, hgreedy, horder⟩ := exists_order (classes.map DeclaredClass.toClassDef)
  obtain ⟨front, back, rfl⟩ := List.append_of_mem (hgreedy.mem_iff.mpr ⟨hbase.lt.1, hacyclic⟩)
  have hfront : j ∈ front :=
    basesFirstBehind_nil.mp hgreedy.basesFirstBehind front i back rfl j hbase
  have hsub : [j, i].Sublist (order (classes.map DeclaredClass.toClassDef)) := by
    rw [horder]
    apply List.Sublist.trans ?_ (List.sublist_append_left _ _)
    exact (List.singleton_sublist.mpr hfront).append
      (List.singleton_sublist.mpr List.mem_cons_self)
  simpa [hb, hc, ordered] using hsub.filterMap (classes[·]?)

/-! ### Classes in order already -/

theorem basesFirst_range : BasesFirst classes (List.range classes.length) ↔
    ∀ i j, IsBase classes i j → j < i := by
  constructor
  · intro h i j hj
    have hsplit : List.range classes.length = List.range i ++ i ::
        (List.range classes.length).drop (i + 1) := by
      have hi : i < (List.range classes.length).length := by simpa using hj.lt.1
      have hdrop := List.drop_eq_getElem_cons hi
      rw [List.getElem_range] at hdrop
      have htake : (List.range classes.length).take i = List.range i := by
        rw [List.take_range, Nat.min_eq_left (Nat.le_of_lt hj.lt.1)]
      rw [← htake, ← hdrop, List.take_append_drop]
    exact List.mem_range.mp (h _ _ _ hsplit j hj)
  · intro h front i back hsplit j hj
    have hsorted : (front ++ i :: back).Pairwise (· < ·) := hsplit ▸ List.pairwise_lt_range
    obtain ⟨-, hback, -⟩ := List.pairwise_append.mp hsorted
    have hmem : j ∈ front ++ i :: back := hsplit ▸ List.mem_range.mpr hj.lt.2
    rcases List.mem_append.mp hmem with hfront | hbehind
    · exact hfront
    · have hlt := h i j hj
      rcases List.mem_cons.mp hbehind with rfl | hbehind
      · exact absurd hlt (Nat.lt_irrefl j)
      · exact absurd hlt (Nat.lt_asymm (List.rel_of_pairwise_cons hback hbehind))

/-- No arrangement of an ascending row is less than it. -/
theorem not_lex_of_perm {s m : List Nat} (hs : s.Pairwise (· < ·)) (hperm : m.Perm s) :
    ¬ List.Lex (· < ·) m s := by
  induction s generalizing m with
  | nil =>
    rw [hperm.eq_nil]
    exact fun h => nomatch h
  | cons x s ih =>
    rw [List.pairwise_cons] at hs
    intro hlex
    cases hlex with
    | nil => exact absurd hperm.symm.eq_nil (List.cons_ne_nil _ _)
    | cons hlex => exact ih hs.2 hperm.cons_inv hlex
    | @rel a m _ _ hlt =>
      rcases List.mem_cons.mp (hperm.mem_iff.mp List.mem_cons_self) with rfl | hmem
      · exact Nat.lt_irrefl _ hlt
      · exact Nat.lt_asymm hlt (hs.1 _ hmem)

theorem order_of_basesFirst (h : BasesFirst classes (List.range classes.length)) :
    order classes = List.range classes.length := by
  obtain ⟨placed, hgreedy, horder⟩ := exists_order classes
  have hbelow := basesFirst_range.mp h
  have hacyclic : ∀ i, ¬ ReachesCycle classes i := by
    intro i
    induction i using Nat.strong_induction_on with
    | _ i ih => exact not_reachesCycle_of_bases fun j hj => ih j (hbelow i j hj)
  have hmem : ∀ i, i ∈ placed ↔ i ∈ List.range classes.length := by
    intro i
    rw [hgreedy.mem_iff, List.mem_range]
    exact and_iff_left (hacyclic i)
  have hperm : (List.range classes.length).Perm placed :=
    (List.perm_ext_iff_of_nodup List.nodup_range hgreedy.nodup).mpr fun i => (hmem i).symm
  have hsame : List.range classes.length = placed := by
    rcases hgreedy.least hperm (basesFirstBehind_nil.mpr h) with hsame | hlex
    · exact hsame
    · exact absurd hlex (not_lex_of_perm List.pairwise_lt_range hperm.symm)
  rw [horder, ← hsame, List.filter_eq_nil_iff.mpr, List.append_nil]
  intro i hi
  simp [List.mem_range.mp hi]

/-! ### Classes behind their bases -/

/-- **Classes stand behind their bases.**  Nothing is lost or doubled.  First come the
    classes from which no cycle is reached, in the least row of positions in which each one
    stands behind its bases; the others follow as they were given.  So what is in such an
    order already is left alone. -/
theorem ordered_basesFirst (classes : List DeclaredClass) :
    let defs := classes.map DeclaredClass.toClassDef
    (ordered classes).Perm classes ∧
    (∃ placed rest, ordered classes = (placed ++ rest).filterMap (fun i => classes[i]?) ∧
      order defs = placed ++ rest ∧ (placed ++ rest).Perm (List.range classes.length) ∧
      (∀ i, i ∈ placed ↔ i < classes.length ∧ ¬ ReachesCycle defs i) ∧
      BasesFirst defs placed ∧
      (∀ other : List Nat, other.Perm placed → BasesFirst defs other →
        other = placed ∨ List.Lex (· < ·) placed other) ∧
      (∀ i, i ∈ rest ↔ i < classes.length ∧ ReachesCycle defs i) ∧ rest.Pairwise (· < ·)) ∧
    (BasesFirst defs (List.range classes.length) → ordered classes = classes) := by
  intro defs
  have hlength : defs.length = classes.length := List.length_map _
  obtain ⟨placed, hgreedy, horder⟩ := exists_order defs
  rw [hlength] at horder
  have hplaced : ∀ i, i ∈ placed ↔ i < classes.length ∧ ¬ ReachesCycle defs i := by
    intro i
    rw [← hlength]
    exact hgreedy.mem_iff
  have hperm := order_perm defs
  rw [horder, hlength] at hperm
  refine ⟨ordered_perm classes, ⟨placed, _, ?_, horder, hperm, hplaced,
    basesFirstBehind_nil.mp hgreedy.basesFirstBehind, ?_, ?_,
    List.pairwise_lt_range.filter _⟩, ?_⟩
  · rw [ordered, horder]
  · intro other hother hfirst
    exact hgreedy.least hother (basesFirstBehind_nil.mpr hfirst)
  · intro i
    rw [List.mem_filter, List.mem_range, Bool.not_eq_true', ← Bool.not_eq_true,
      List.contains_iff_mem, hplaced]
    tauto
  · intro hfirst
    rw [← hlength] at hfirst
    rw [ordered, order_of_basesFirst hfirst, hlength, filterMap_range]

/-- Classes in order, the last of them a second one of its name. -/
theorem ordered_basesFirst_in_order :
    let classes : List DeclaredClass := [⟨⟨"A", []⟩, "class A"⟩, ⟨⟨"b", ["Other"]⟩, "class b"⟩,
      ⟨⟨"C", ["My.a[int]", "B"]⟩, "class C"⟩, ⟨⟨"a", ["C"]⟩, "class a"⟩]
    BasesFirst (classes.map DeclaredClass.toClassDef) (List.range classes.length) ∧
      ordered classes = classes := by
  intro classes
  let defs := classes.map DeclaredClass.toClassDef
  have hbelow : ∀ i < defs.length, ∀ j ∈ basesAt defs i, j < i := by decide +kernel
  have hfirst : BasesFirst defs (List.range defs.length) :=
    basesFirst_range.mpr fun i j hj => hbelow i hj.lt.1 j (mem_basesAt.mpr hj)
  obtain ⟨-, -, hsame⟩ := ordered_basesFirst classes
  exact ⟨hfirst, hsame hfirst⟩

/-- Two classes wait for others, one is its own base and one is based on that. -/
example : order [⟨"D", ["b", "My.C[int]"]⟩, ⟨"B", ["A"]⟩, ⟨"X", ["x"]⟩, ⟨"A", []⟩, ⟨"C", ["a", "A"]⟩,
    ⟨"Y", ["X"]⟩] = [3, 1, 4, 0, 2, 5] := by
  decide +kernel

end ScriptModule.ClassDef
