/-
  ScriptModule/Proofs/VersionOrder.lean
  =====================================
  **The order of versions.**  Versions are compared by keys without the zeros at their end,
  and a beginning stands before the whole.  Both together compare numbers: of two versions
  that are written equally long, with zeros behind the shorter one, the first number that
  differs decides (`key_lt_iff`).  So `1.2` and `1.2.0` are one version, and all versions
  stand in one row.
-/
import Mathlib.Data.List.DropRight
import ScriptModule.Proofs.Demand
import ScriptModule.Proofs.PrintedVersion

namespace ScriptModule.Version

/-! ### Zeros at the end -/

/-- The numbers of a version, with zeros behind them up to a length. -/
def padded (n : Nat) (v : List Nat) : List Nat := v ++ List.replicate (n - v.length) 0

/-- The numbers of a version up to the last one that is not zero. -/
def significant (v : List Nat) : List Nat := v.rdropWhile (· == 0)

-- A number that is not there counts as zero, so the three lemmas below hold of the empty
-- list as well, and lists of different lengths are compared by one induction.

theorem padded_succ (n : Nat) (v : List Nat) :
    padded (n + 1) v = v.headD 0 :: padded n v.tail := by
  cases v with
  | nil => simp [padded, List.replicate_succ]
  | cons a v => simp [padded]

theorem significant_eq (v : List Nat) :
    significant v =
      if v.headD 0 = 0 ∧ significant v.tail = [] then []
      else v.headD 0 :: significant v.tail := by
  cases v with
  | nil => rfl
  | cons a v =>
    have hsplit : significant (a :: v) =
        (if (v.reverse.dropWhile (· == 0)).isEmpty then [a].dropWhile (· == 0)
          else v.reverse.dropWhile (· == 0) ++ [a]).reverse := by
      rw [significant, List.rdropWhile, List.reverse_cons, List.dropWhile_append]
    rw [hsplit]
    by_cases hzero : v.reverse.dropWhile (· == 0) = []
    · by_cases ha : a = 0 <;> simp [significant, List.rdropWhile, hzero, ha]
    · simp [significant, List.rdropWhile, hzero]

/-- A number and what is significant behind it are compared one after the other, even if
    both are left out. -/
theorem lt_iff_of_significant {a b : Nat} {s t : List Nat} :
    (if a = 0 ∧ s = [] then [] else a :: s) < (if b = 0 ∧ t = [] then [] else b :: t) ↔
      a < b ∨ a = b ∧ s < t := by
  by_cases hleft : a = 0 ∧ s = []
  · by_cases hright : b = 0 ∧ t = []
    · simp [hleft, hright]
    · obtain ⟨rfl, rfl⟩ := hleft
      have hpos : 0 < b ∨ 0 = b ∧ [] < t := by
        by_cases hb : b = 0
        · obtain ⟨c, t, rfl⟩ := List.exists_cons_of_ne_nil fun ht => hright ⟨hb, ht⟩
          exact Or.inr ⟨hb.symm, List.nil_lt_cons c t⟩
        · exact Or.inl (Nat.pos_of_ne_zero hb)
      simp [hright, hpos]
  · by_cases hright : b = 0 ∧ t = []
    · simp [hleft, hright]
    · rw [if_neg hleft, if_neg hright, List.cons_lt_cons_iff]

theorem significant_lt_iff {n : Nat} {v w : List Nat} (hv : v.length ≤ n) (hw : w.length ≤ n) :
    significant v < significant w ↔ padded n v < padded n w := by
  induction n generalizing v w with
  | zero =>
    rw [List.eq_nil_of_length_eq_zero (Nat.le_zero.mp hv),
      List.eq_nil_of_length_eq_zero (Nat.le_zero.mp hw)]
    simp
  | succ n ih =>
    have hmore : significant v.tail < significant w.tail ↔
        padded n v.tail < padded n w.tail := by
      apply ih
      · rw [List.length_tail]
        omega
      · rw [List.length_tail]
        omega
    rw [significant_eq v, significant_eq w, lt_iff_of_significant, padded_succ, padded_succ,
      List.cons_lt_cons_iff, hmore]

/-! ### Keys -/

theorem key_eq (v : List Nat) :
    key v = if significant v = [] then v.take 1 else significant v := by
  rw [key, significant, List.rdropWhile]
  split
  · next hnone => rw [if_pos hnone]
  · next hsome => rw [if_neg hsome]

/-- The first number stays in the key, the others only if they are significant. -/
theorem key_cons (a : Nat) (v : List Nat) : key (a :: v) = a :: significant v := by
  rw [key_eq, significant_eq]
  by_cases hzero : a = 0 ∧ significant v = []
  · simp [hzero]
  · simp [hzero]

theorem key_lt_iff {n : Nat} {v w : List Nat} (hv : v ≠ []) (hw : w ≠ []) (hvn : v.length ≤ n)
    (hwn : w.length ≤ n) : key v < key w ↔ padded n v < padded n w := by
  obtain ⟨a, v, rfl⟩ := List.exists_cons_of_ne_nil hv
  obtain ⟨b, w, rfl⟩ := List.exists_cons_of_ne_nil hw
  obtain ⟨n, rfl⟩ : ∃ m, n = m + 1 := ⟨n - 1, by simp at hvn; omega⟩
  have hmore : significant v < significant w ↔ padded n v < padded n w :=
    significant_lt_iff (Nat.le_of_succ_le_succ hvn) (Nat.le_of_succ_le_succ hwn)
  rw [key_cons, key_cons, padded_succ, padded_succ, List.cons_lt_cons_iff,
    List.cons_lt_cons_iff, hmore]
  rfl

theorem key_eq_iff {n : Nat} {v w : List Nat} (hv : v ≠ []) (hw : w ≠ []) (hvn : v.length ≤ n)
    (hwn : w.length ≤ n) : key v = key w ↔ padded n v = padded n w := by
  rw [le_antisymm_iff, le_antisymm_iff, ← not_lt, ← not_lt, ← not_lt, ← not_lt,
    key_lt_iff hv hw hvn hwn, key_lt_iff hw hv hwn hvn]

/-! ### Version texts -/

/-- A version has at least one number. -/
theorem ne_nil_of_read? {t : Text} {v : List Nat} (h : read? t = .ok (some v)) : v ≠ [] := by
  have hall := (read?_eq_ok h).2
  obtain ⟨p, ps, hparts⟩ := Text.exists_cons_fields '.' (Text.trim t)
  rw [hparts, List.mapM_cons] at hall
  obtain ⟨n, -, hall⟩ := bind_eq_ok.mp hall
  obtain ⟨ns, -, hall⟩ := bind_eq_ok.mp hall
  cases hall
  exact List.cons_ne_nil n ns

theorem keyOf_eq {t : Text} {v : List Nat} (h : read? t = .ok (some v)) :
    keyOf t = key v := by
  rw [keyOf, h]

/-- Whether a version is not above another one. -/
def AtMost (a b : Text) : Prop := less (keyOf b) (keyOf a) = false

instance (a b : Text) : Decidable (AtMost a b) :=
  inferInstanceAs (Decidable (less (keyOf b) (keyOf a) = false))

theorem atMost_iff {a b : Text} : AtMost a b ↔ keyOf a ≤ keyOf b := by
  rw [AtMost, ← Bool.not_eq_true, less_iff_lt, not_lt]

/-- **Keys compare versions by their numbers.**  Two versions have one key exactly if their
    numbers are equal once zeros are put behind the shorter row, and the key of one stands
    before that of the other exactly if its row, so filled up, is smaller in its first
    number that differs.  So versions are in a total preorder, in which those of one key
    stand beside each other. -/
theorem keyOf_order {a b : Text} {u v : List Nat} (ha : read? a = .ok (some u))
    (hb : read? b = .ok (some v)) :
    let n := max u.length v.length
    (keyOf a = keyOf b ↔ padded n u = padded n v) ∧
    (less (keyOf a) (keyOf b) = true ↔ padded n u < padded n v) ∧
    (AtMost a b ↔ padded n u ≤ padded n v) ∧
    (AtMost a a ∧ (AtMost a b ∨ AtMost b a) ∧
      ∀ c w, read? c = .ok (some w) → AtMost a b → AtMost b c → AtMost a c) ∧
    (AtMost a b ∧ AtMost b a ↔ keyOf a = keyOf b) := by
  intro n
  have hu : u ≠ [] := ne_nil_of_read? ha
  have hv : v ≠ [] := ne_nil_of_read? hb
  have hun : u.length ≤ n := Nat.le_max_left ..
  have hvn : v.length ≤ n := Nat.le_max_right ..
  simp only [atMost_iff, less_iff_lt]
  refine ⟨?_, ?_, ?_, ⟨le_refl _, le_total _ _, fun _ _ _ => le_trans⟩, le_antisymm_iff.symm⟩
  · rw [keyOf_eq ha, keyOf_eq hb]
    exact key_eq_iff hu hv hun hvn
  · rw [keyOf_eq ha, keyOf_eq hb]
    exact key_lt_iff hu hv hun hvn
  · rw [keyOf_eq ha, keyOf_eq hb, ← not_lt, ← not_lt]
    exact not_congr (key_lt_iff hv hu hvn hun)

/-- A version of nothing but zeros is below one with a number behind more zeros, and that
    one is below a version whose second number is longer. -/
theorem keyOf_order_zeros :
    let zero : Text := " 0.0"
    let small : Text := "0.0.0.9"
    let large : Text := "0.10.00"
    read? zero = .ok (some [0, 0]) ∧ read? small = .ok (some [0, 0, 0, 9]) ∧
      read? large = .ok (some [0, 10, 0]) ∧
      less (keyOf zero) (keyOf small) = true ∧ AtMost zero large := by
  intro zero small large
  have hzero : read? zero = .ok (some [0, 0]) := by decide +kernel
  have hsmall : read? small = .ok (some [0, 0, 0, 9]) := by decide +kernel
  have hlarge : read? large = .ok (some [0, 10, 0]) := by decide +kernel
  obtain ⟨-, hless, hfirst, ⟨-, -, htrans⟩, -⟩ := keyOf_order hzero hsmall
  obtain ⟨-, -, hsecond, -⟩ := keyOf_order hsmall hlarge
  refine ⟨hzero, hsmall, hlarge, hless.mpr (by decide), ?_⟩
  apply htrans large _ hlarge
  · exact hfirst.mpr (by decide)
  · exact hsecond.mpr (by decide)

end ScriptModule.Version
